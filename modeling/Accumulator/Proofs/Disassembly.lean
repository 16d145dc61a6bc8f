import Accumulator.Machine.Op
import Accumulator.Proofs.Pieces
/-!
# Disassembling assembled code

No encoding of a recognised operation is a prefix of another one, so the operation at a place of a
code does not depend on the order of the table and an encoding is recognised whatever follows it.
-/

namespace Accumulator.Proofs.Disassembly

open Machine Pieces

theorem mem_all (op : Op) : op ∈ Op.all := by
  cases op <;> decide

theorem encoding_prefix_free {a b : Op} (h : a.encoding <+: b.encoding) : a = b := by
  revert h
  cases a <;> cases b <;> decide

theorem encoding_unique {a b : Op} {code : Bytes} (ha : a.encoding <+: code)
    (hb : b.encoding <+: code) : a = b := by
  rcases List.prefix_or_prefix_of_prefix ha hb with hab | hba
  · exact encoding_prefix_free hab
  · exact (encoding_prefix_free hba).symm

theorem find?_eq_some_iff (table : List Op) (code : Bytes) (op : Op) :
    Op.find? table code = some op ↔ op ∈ table ∧ op.encoding <+: code := by
  unfold Op.find?
  constructor
  · intro hfind
    have hprefix := List.find?_some hfind
    exact ⟨List.mem_of_find?_eq_some hfind, List.isPrefixOf_iff_prefix.1 hprefix⟩
  · rintro ⟨hmem, hprefix⟩
    cases hfind : table.find? fun op => op.encoding.isPrefixOf code with
    | none =>
        have hnone := List.find?_eq_none.1 hfind op hmem
        exact absurd (List.isPrefixOf_iff_prefix.2 hprefix) hnone
    | some found =>
        have hfound := List.find?_some hfind
        rw [encoding_unique (List.isPrefixOf_iff_prefix.1 hfound) hprefix]

theorem find?_encoding_append (op : Op) (rest : Bytes) :
    Op.find? Op.all (op.encoding ++ rest) = some op :=
  (find?_eq_some_iff _ _ _).2 ⟨mem_all op, List.prefix_append _ _⟩

/-! ## Sequences of operations -/

def disassembleAt (offset : Nat) (code : Bytes) : List Decoded :=
  (piecesAt (Op.trailing Op.all) offset code).map (Decoded.ofPiece Op.all)

theorem disassemble_eq_disassembleAt (code : Bytes) :
    disassemble code = disassembleAt 0 code := rfl

def placed (offset : Nat) (op : Op) : Decoded :=
  ⟨⟨offset, op.encoding.headD 0, op.encoding.tail⟩, some op⟩

def layout (offset : Nat) : List Op → List Decoded
  | [] => []
  | op :: ops => placed offset op :: layout (offset + op.encoding.length) ops

def assemble (ops : List Op) : Bytes :=
  ops.flatMap Op.encoding

theorem layout_append (offset : Nat) (first second : List Op) :
    layout offset (first ++ second) =
      layout offset first ++ layout (offset + (assemble first).length) second := by
  induction first generalizing offset with
  | nil => rfl
  | cons op ops ih =>
      have hassemble : (assemble (op :: ops)).length =
          op.encoding.length + (assemble ops).length := by
        simp [assemble]
      rw [List.cons_append, layout, layout, List.cons_append, ih, hassemble, Nat.add_assoc]

theorem encoding_eq_cons (op : Op) :
    op.encoding = op.encoding.headD 0 :: op.encoding.tail := by
  cases op <;> rfl

theorem encoding_ne_nil (op : Op) : op.encoding ≠ [] := by
  rw [encoding_eq_cons op]
  exact List.cons_ne_nil _ _

theorem disassembleAt_encoding_append (offset : Nat) (op : Op) (rest : Bytes) :
    disassembleAt offset (op.encoding ++ rest) =
      placed offset op :: disassembleAt (offset + op.encoding.length) rest := by
  have htrailing : Op.trailing Op.all (op.encoding ++ rest) = op.encoding.tail.length := by
    simp only [Op.trailing, find?_encoding_append, List.length_tail]
  have hlength : op.encoding.tail.length + 1 = op.encoding.length := by
    rw [encoding_eq_cons op]
    rfl
  have hop : Op.find? Op.all op.encoding = some op := by
    simpa using find?_encoding_append op []
  unfold disassembleAt
  rw [encoding_eq_cons op] at htrailing
  conv => lhs; rw [encoding_eq_cons op]
  rw [piecesAt_append _ _ _ _ _ htrailing, List.map_cons, hlength]
  congr 1
  unfold Decoded.ofPiece placed
  rw [Piece.bytes, ← encoding_eq_cons op, hop]

theorem disassembleAt_assemble_append (offset : Nat) (ops : List Op) (rest : Bytes) :
    disassembleAt offset (assemble ops ++ rest) =
      layout offset ops ++ disassembleAt (offset + (assemble ops).length) rest := by
  induction ops generalizing offset with
  | nil => rfl
  | cons op ops ih =>
      have hassemble : assemble (op :: ops) = op.encoding ++ assemble ops := rfl
      rw [hassemble, List.append_assoc, disassembleAt_encoding_append, ih, List.length_append,
        ← Nat.add_assoc]
      rfl

theorem disassemble_assemble (ops : List Op) : disassemble (assemble ops) = layout 0 ops := by
  have happend := disassembleAt_assemble_append 0 ops []
  rw [List.append_nil] at happend
  rw [disassemble_eq_disassembleAt, happend]
  exact List.append_nil _

/-! ## Positions -/

theorem map_op_layout (offset : Nat) (ops : List Op) :
    (layout offset ops).map (·.op) = ops.map some := by
  induction ops generalizing offset with
  | nil => rfl
  | cons op ops ih =>
      rw [layout, List.map_cons, ih]
      rfl

theorem map_bytes_layout (offset : Nat) (ops : List Op) :
    (layout offset ops).map (·.bytes) = ops.map Op.encoding := by
  induction ops generalizing offset with
  | nil => rfl
  | cons op ops ih =>
      have hbytes : (placed offset op).bytes = op.encoding := (encoding_eq_cons op).symm
      rw [layout, List.map_cons, List.map_cons, ih, hbytes]

theorem map_offset_layout (offset : Nat) (ops : List Op) :
    (layout offset ops).map (·.offset) =
      (List.range ops.length).map fun i => offset + (assemble (ops.take i)).length := by
  induction ops generalizing offset with
  | nil => rfl
  | cons op ops ih =>
      have hassemble (i : Nat) : (assemble ((op :: ops).take (i + 1))).length =
          op.encoding.length + (assemble (ops.take i)).length := by
        simp [assemble]
      rw [layout, List.map_cons, ih, List.length_cons, List.range_succ_eq_map, List.map_cons,
        List.map_map]
      simp only [Function.comp_def, Nat.succ_eq_add_one, hassemble, Nat.add_assoc]
      rfl

def shifted (n : Nat) (d : Decoded) : Decoded :=
  { d with offset := d.offset + n }

theorem disassembleAt_add (offset n : Nat) (code : Bytes) :
    disassembleAt (offset + n) code = (disassembleAt offset code).map (shifted n) := by
  unfold disassembleAt
  rw [piecesAt_add, List.map_map, List.map_map]
  rfl

/-- Disassembly undoes assembly whatever follows: the operations come back in order, each with its
encoding and the number of bytes in front of it, and the rest is disassembled as if it stood alone,
only further on. -/
theorem disassemble_assemble_append (ops : List Op) (rest : Bytes) :
    ∃ first : List Decoded,
      disassemble (assemble ops ++ rest) =
        first ++ (disassemble rest).map (shifted (assemble ops).length) ∧
      first.map (·.op) = ops.map some ∧
      first.map (·.bytes) = ops.map Op.encoding ∧
      first.map (·.offset) = (List.range ops.length).map fun i => (assemble (ops.take i)).length := by
  refine ⟨layout 0 ops, ?_, map_op_layout 0 ops, map_bytes_layout 0 ops, ?_⟩
  · rw [disassemble_eq_disassembleAt, disassemble_eq_disassembleAt, disassembleAt_assemble_append,
      disassembleAt_add]
  · simpa using map_offset_layout 0 ops

end Accumulator.Proofs.Disassembly
