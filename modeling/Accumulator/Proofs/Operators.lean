import Accumulator.Proofs.Compilation
import Accumulator.Proofs.UniqueDecoding
/-!
# The code of a source and its operators

The code of a source is made from its operators alone, one fragment for each, and the fragments can
be told apart by their first instruction.  So two sources have the same code exactly when they have
the same operators in the same order.
-/

namespace Accumulator.Proofs.Operators

open Compilation Disassembly Machine Meaning Pieces Scanning Text.Utf8 UniqueDecoding

def isOperator (b : UInt8) : Bool :=
  b = Bytes.ofChar '+' || b = Bytes.ofChar '-' || b = Bytes.ofChar '*' || b = Bytes.ofChar '/'

def operators (source : Bytes) : Bytes :=
  source.filter isOperator

def byteFragment (b : UInt8) : List Op :=
  (Kind.ofChar b.toNat).fragment

/-! ## From the source to the instructions -/

theorem fragment_character {p : Piece} (hp : IsCharacter p) :
    (Token.ofPiece p).kind.fragment = p.bytes.flatMap byteFragment := by
  rcases kind_character hp with ⟨b, hbytes, hkind⟩ | ⟨hkind, hbytes⟩
  · rw [hbytes, hkind, List.flatMap_cons, List.flatMap_nil, List.append_nil]
    rfl
  · have hnil : p.bytes.flatMap byteFragment = [] := by
      apply List.flatMap_eq_nil_iff.2
      intro b hb
      have hlow := hbytes b hb
      rw [byteFragment, ofChar_ignored (by omega)]
      rfl
    rw [hkind, hnil]
    rfl

theorem flatMap_fragment_scan (source : Bytes) :
    (Token.scan source).flatMap (·.kind.fragment) = source.flatMap byteFragment := by
  have hsource := flatMap_bytes_piecesAt trailing 0 source
  rw [Token.scan, cut_eq_piecesAt, List.flatMap_map]
  conv => rhs; rw [← hsource, List.flatMap_assoc]
  apply List.flatMap_congr
  intro p hp
  exact fragment_character (isCharacter_of_mem hp)

theorem ne_of_not_isOperator {b : UInt8} (hb : isOperator b = false) :
    b ≠ Bytes.ofChar '+' ∧ b ≠ Bytes.ofChar '-' ∧ b ≠ Bytes.ofChar '*' ∧ b ≠ Bytes.ofChar '/' := by
  simpa [isOperator, and_assoc] using hb

theorem byteFragment_eq_nil {b : UInt8} (hb : isOperator b = false) : byteFragment b = [] := by
  obtain ⟨hplus, hminus, hstar, hslash⟩ := ne_of_not_isOperator hb
  rw [byteFragment, ofChar_of_ne hplus hminus hstar hslash]
  rfl

theorem flatMap_byteFragment_operators (source : Bytes) :
    (operators source).flatMap byteFragment = source.flatMap byteFragment := by
  induction source with
  | nil => rfl
  | cons b rest ih =>
      cases hb : isOperator b with
      | true =>
          rw [operators, List.filter_cons_of_pos hb, List.flatMap_cons, List.flatMap_cons, ← ih]
          rfl
      | false =>
          rw [operators, List.filter_cons_of_neg (by simp [hb]), List.flatMap_cons,
            byteFragment_eq_nil hb, List.nil_append, ← ih]
          rfl

theorem code_compile (source : Bytes) :
    (Program.compile source).code =
      assemble (.zero :: (operators source).flatMap byteFragment ++ [.ret]) := by
  rw [Program.compile, code_encode, operations, flatMap_fragment_scan,
    flatMap_byteFragment_operators]

/-! ## From the instructions to the source -/

def signOf : Op → UInt8
  | .inc => Bytes.ofChar '+'
  | .dec => Bytes.ofChar '-'
  | .shl1 => Bytes.ofChar '*'
  | _ => Bytes.ofChar '/'

theorem byteFragment_of_isOperator {b : UInt8} (hb : isOperator b = true) :
    ∃ op ops, byteFragment b = op :: ops ∧ signOf op = b := by
  simp only [isOperator, Bool.or_eq_true, decide_eq_true_eq] at hb
  rcases hb with ((rfl | rfl) | rfl) | rfl
  · exact ⟨.inc, _, rfl, rfl⟩
  · exact ⟨.dec, _, rfl, rfl⟩
  · exact ⟨.shl1, _, rfl, rfl⟩
  · exact ⟨.cqo, _, rfl, rfl⟩

theorem byteFragment_append_inj {a b : UInt8} {s t : List Op} (ha : isOperator a = true)
    (hb : isOperator b = true) (heq : byteFragment a ++ s = byteFragment b ++ t) :
    a = b ∧ s = t := by
  obtain ⟨opa, opsa, hfa, hsa⟩ := byteFragment_of_isOperator ha
  obtain ⟨opb, opsb, hfb, hsb⟩ := byteFragment_of_isOperator hb
  have hab : a = b := by
    rw [hfa, hfb, List.cons_append, List.cons_append, List.cons.injEq] at heq
    rw [← hsa, ← hsb, heq.1]
  subst hab
  exact ⟨rfl, List.append_cancel_left heq⟩

theorem encoding_append_inj {a b : Op} {s t : Bytes}
    (heq : a.encoding ++ s = b.encoding ++ t) : a = b ∧ s = t := by
  have hab : a = b := by
    apply encoding_unique (List.prefix_append a.encoding s)
    rw [heq]
    exact List.prefix_append b.encoding t
  subst hab
  exact ⟨rfl, List.append_cancel_left heq⟩

theorem assemble_inj {first second : List Op} (heq : assemble first = assemble second) :
    first = second := by
  exact eq_of_flatMap_eq (fun op _ => encoding_ne_nil op)
    (fun a b s t (_ : True) (_ : True) => encoding_append_inj) (by simp) (by simp) heq

/-- Two sources have the same code exactly when they have the same operators in the same order. -/
theorem code_compile_eq_iff (first second : Bytes) :
    (Program.compile first).code = (Program.compile second).code ↔
      first.filter isOperator = second.filter isOperator := by
  rw [code_compile, code_compile]
  constructor
  · intro heq
    have hops := assemble_inj heq
    simp only [List.cons_append, List.cons.injEq, true_and, List.append_cancel_right_eq] at hops
    have hne : ∀ b : UInt8, isOperator b = true → byteFragment b ≠ [] := by
      intro b hb hnil
      obtain ⟨op, ops, hcons, _⟩ := byteFragment_of_isOperator hb
      rw [hcons] at hnil
      cases hnil
    exact eq_of_flatMap_eq hne (fun a b s t => byteFragment_append_inj)
      (fun b hb => (List.mem_filter.1 hb).2) (fun b hb => (List.mem_filter.1 hb).2) hops
  · intro heq
    rw [operators, operators, heq]

end Accumulator.Proofs.Operators
