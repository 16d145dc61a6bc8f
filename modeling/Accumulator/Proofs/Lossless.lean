import Accumulator.Proofs.Disassembly
/-!
# Any code falls apart into instructions

Assembled code is read back by `Disassembly`.  Here the bytes are arbitrary: garbage, instructions cut
off at the end, encodings that begin inside other bytes.  What stands at the front of a code decides
its first instruction, and the pieces behind it do not look back, so a fact about the front is a fact
about every instruction of the disassembly.
-/

namespace Accumulator.Proofs.Lossless

open Disassembly Machine Pieces

/-! ## The front of a code -/

theorem find?_eq_none_iff (code : Bytes) :
    Op.find? Op.all code = none ↔ ∀ op : Op, ¬ op.encoding <+: code := by
  constructor
  · intro hnone op hstart
    have hsome := (find?_eq_some_iff Op.all code op).2 ⟨mem_all op, hstart⟩
    rw [hnone] at hsome
    cases hsome
  · intro hno
    cases hfind : Op.find? Op.all code with
    | none => rfl
    | some op => exact absurd ((find?_eq_some_iff _ _ _).1 hfind).2 (hno op)

theorem take_trailing_of_find? {b : UInt8} {rest : Bytes} {op : Op}
    (hfind : Op.find? Op.all (b :: rest) = some op) :
    b :: rest.take (Op.trailing Op.all (b :: rest)) = op.encoding := by
  obtain ⟨_, hstart⟩ := (find?_eq_some_iff _ _ _).1 hfind
  have htrailing : Op.trailing Op.all (b :: rest) = op.encoding.length - 1 := by
    simp only [Op.trailing, hfind]
  rw [htrailing, cons_take_length_pred (encoding_ne_nil op) hstart]

theorem trailing_of_find?_none {code : Bytes} (hfind : Op.find? Op.all code = none) :
    Op.trailing Op.all code = 0 := by
  simp only [Op.trailing, hfind]

theorem find?_take_trailing (b : UInt8) (rest : Bytes) :
    Op.find? Op.all (b :: rest.take (Op.trailing Op.all (b :: rest))) =
      Op.find? Op.all (b :: rest) := by
  cases hfind : Op.find? Op.all (b :: rest) with
  | some op =>
      rw [take_trailing_of_find? hfind]
      simpa using find?_encoding_append op []
  | none =>
      have hno := (find?_eq_none_iff _).1 hfind
      rw [trailing_of_find?_none hfind, List.take_zero, find?_eq_none_iff]
      intro op hstart
      exact hno op (hstart.trans (List.prefix_append [b] rest))

/-! ## Code by its instructions -/

theorem disassembleAt_stray (offset : Nat) {b : UInt8} {rest : Bytes}
    (hno : ∀ op : Op, ¬ op.encoding <+: b :: rest) :
    disassembleAt offset (b :: rest) =
      ⟨⟨offset, b, []⟩, none⟩ :: disassembleAt (offset + 1) rest := by
  have hfind := (find?_eq_none_iff _).2 hno
  have htrailing := trailing_of_find?_none hfind
  have halone := find?_take_trailing b rest
  rw [htrailing, List.take_zero, hfind] at halone
  unfold disassembleAt
  rw [piecesAt_cons, htrailing, List.take_zero, List.drop_zero, List.map_cons]
  simp only [Decoded.ofPiece, Piece.bytes, halone, Nat.add_zero]

/-- Induction over a code that takes off a recognised instruction where there is one, and a byte where
there is none. -/
theorem code_induction {motive : Bytes → Prop} (nil : motive [])
    (recognised : ∀ (op : Op) (rest : Bytes), motive rest → motive (op.encoding ++ rest))
    (stray : ∀ (b : UInt8) (rest : Bytes), (∀ op : Op, ¬ op.encoding <+: b :: rest) →
      motive rest → motive (b :: rest))
    (code : Bytes) : motive code := by
  induction code using pieces_induction (Op.trailing Op.all) with
  | nil => exact nil
  | cons b rest ih =>
      cases hfind : Op.find? Op.all (b :: rest) with
      | some op =>
          have hsplit : b :: rest =
              op.encoding ++ rest.drop (Op.trailing Op.all (b :: rest)) := by
            rw [← take_trailing_of_find? hfind, List.cons_append, List.take_append_drop]
          rw [hsplit]
          exact recognised op _ ih
      | none =>
          rw [trailing_of_find?_none hfind, List.drop_zero] at ih
          exact stray b rest ((find?_eq_none_iff _).1 hfind) ih

/-! ## Every instruction of a disassembly -/

theorem drop_offset_of_mem {code : Bytes} {d : Decoded} (hd : d ∈ disassemble code) :
    ∃ rest : Bytes, code.drop d.offset = d.head :: rest ∧
      d.tail = rest.take (Op.trailing Op.all (d.head :: rest)) ∧
      d.op = Op.find? Op.all (d.head :: rest) := by
  obtain ⟨p, hp, rfl⟩ := List.mem_map.1 hd
  obtain ⟨before, rest, hcode, hoffset, htail⟩ := split_of_mem_piecesAt hp
  refine ⟨rest, ?_, htail, ?_⟩
  · have hlength : p.offset = before.length := by omega
    simp only [Decoded.ofPiece, hcode, hlength, List.drop_left]
  · simp only [Decoded.ofPiece, Piece.bytes, htail, find?_take_trailing]

theorem bytes_of_op {code : Bytes} {d : Decoded} (hd : d ∈ disassemble code) {op : Op}
    (hop : d.op = some op) : d.bytes = op.encoding := by
  obtain ⟨rest, _, htail, hfind⟩ := drop_offset_of_mem hd
  rw [Piece.bytes, htail, take_trailing_of_find? (hfind.symm.trans hop)]

theorem length_bytes_of_stray {code : Bytes} {d : Decoded} (hd : d ∈ disassemble code)
    (hop : d.op = none) : d.bytes.length = 1 := by
  obtain ⟨rest, _, htail, hfind⟩ := drop_offset_of_mem hd
  rw [Piece.bytes, htail, trailing_of_find?_none (hfind.symm.trans hop), List.take_zero]
  rfl

theorem op_eq_none_iff {code : Bytes} {d : Decoded} (hd : d ∈ disassemble code) :
    d.op = none ↔ ∀ op : Op, ¬ op.encoding <+: code.drop d.offset := by
  obtain ⟨rest, hdrop, _, hfind⟩ := drop_offset_of_mem hd
  rw [hfind, hdrop, find?_eq_none_iff]

/-! ## The order of the table -/

theorem find?_perm {table : List Op} (htable : table.Perm Op.all) :
    Op.find? table = Op.find? Op.all := by
  funext code
  apply Option.ext
  intro op
  rw [find?_eq_some_iff, find?_eq_some_iff, htable.mem_iff]

theorem disassembleWith_perm {table : List Op} (htable : table.Perm Op.all) (code : Bytes) :
    disassembleWith table code = disassemble code := by
  have hfind := find?_perm htable
  have htrailing : Op.trailing table = Op.trailing Op.all := by
    funext code
    simp only [Op.trailing, hfind]
  have hpiece : Decoded.ofPiece table = Decoded.ofPiece Op.all := by
    funext p
    simp only [Decoded.ofPiece, hfind]
  rw [disassemble, disassembleWith, disassembleWith, htrailing, hpiece]

/-! ## The whole disassembly -/

/-- Disassembly cuts any bytes at all, without a loss and without a gap, into instructions that are
recognised wherever they can be and single bytes elsewhere; the order of the table has no part in it. -/
theorem disassemble_partition (code : Bytes) :
    (disassemble code).flatMap (·.bytes) = code ∧
    (∀ d ∈ (disassemble code).head?, d.offset = 0) ∧
    ((disassemble code).IsChain fun d next => next.offset = d.offset + d.bytes.length) ∧
    (∀ d ∈ disassemble code,
      (d.op = none ↔ ∀ op : Op, ¬ op.encoding <+: code.drop d.offset) ∧
      (d.op = none → d.bytes.length = 1) ∧
      ∀ op : Op, d.op = some op → d.bytes = op.encoding) ∧
    ∀ table : List Op, table.Perm Op.all → disassembleWith table code = disassemble code := by
  refine ⟨?_, ?_, ?_, ?_, fun table htable => disassembleWith_perm htable code⟩
  · rw [disassemble, disassembleWith, List.flatMap_map]
    exact flatMap_bytes_piecesAt (Op.trailing Op.all) 0 code
  · intro d hd
    rw [disassemble, disassembleWith, List.head?_map] at hd
    obtain ⟨p, hp, rfl⟩ := Option.map_eq_some_iff.1 hd
    exact (offset_of_mem_head? hp).1
  · rw [disassemble, disassembleWith, List.isChain_map]
    exact isChain_piecesAt (Op.trailing Op.all) 0 code
  · intro d hd
    exact ⟨op_eq_none_iff hd, length_bytes_of_stray hd, fun op => bytes_of_op hd⟩

/-- A `mov` that is cut off by a `cqo`, looked up in the table from its end. -/
theorem disassemble_partition_cut_off :
    let code : Bytes := [0x48, 0xC7, 0xC1, 0x48, 0x99]
    let first : Decoded := ⟨⟨0, 0x48, []⟩, none⟩
    first ∈ disassemble code ∧ (∀ op : Op, ¬ op.encoding <+: code.drop first.offset) ∧
    Op.all.reverse.Perm Op.all ∧ disassembleWith Op.all.reverse code = disassemble code := by
  intro code first
  obtain ⟨_, _, _, hinstr, htable⟩ := disassemble_partition code
  have hfirst : first ∈ disassemble code := by decide
  have hreverse : Op.all.reverse.Perm Op.all := List.reverse_perm Op.all
  exact ⟨hfirst, (hinstr first hfirst).1.1 rfl, hreverse, htable Op.all.reverse hreverse⟩

end Accumulator.Proofs.Lossless
