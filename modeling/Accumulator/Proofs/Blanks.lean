import Accumulator.Proofs.Scanning
import Accumulator.Text.Blank
/-!
# Blank lines

A blank line is white space in UTF-8 from its first byte to its last.  A byte that is not part of a
character makes a line that is not blank.
-/

namespace Accumulator.Proofs.Blanks

open Pieces Scanning Text Text.Utf8 Utf8

/-- The code points with the Unicode property White_Space. -/
def whiteSpace : List Nat :=
  [0x0009, 0x000A, 0x000B, 0x000C, 0x000D, 0x0020, 0x0085, 0x00A0, 0x1680, 0x2000, 0x2001, 0x2002,
    0x2003, 0x2004, 0x2005, 0x2006, 0x2007, 0x2008, 0x2009, 0x200A, 0x2028, 0x2029, 0x202F, 0x205F,
    0x3000]

def Blank (line : Bytes) : Prop :=
  ∃ cs : List Char, line = cs.flatMap String.utf8EncodeChar ∧ ∀ c ∈ cs, c.toNat ∈ whiteSpace

theorem isBlank_iff (c : Nat) : isBlank c = true ↔ c ∈ whiteSpace := by
  simp only [isBlank, whiteSpace, Bool.or_eq_true, Bool.and_eq_true, decide_eq_true_eq, beq_iff_eq,
    List.mem_cons, List.not_mem_nil, or_false]
  omega

theorem blank_nil : Blank [] :=
  ⟨[], rfl, nofun⟩

theorem decode?_utf8EncodeChar_append (c : Char) (rest : Bytes) :
    decode? (String.utf8EncodeChar c ++ rest) = some c.toNat := by
  apply (decode?_eq_some_iff _ _).2
  rw [encode_toNat]
  exact ⟨isScalar_toNat c, List.prefix_append _ _⟩

theorem blank_append_iff (c : Char) (rest : Bytes) :
    Blank (String.utf8EncodeChar c ++ rest) ↔ c.toNat ∈ whiteSpace ∧ Blank rest := by
  have hstart := decode?_utf8EncodeChar_append c rest
  constructor
  · rintro ⟨cs, hbytes, hwhite⟩
    rw [hbytes] at hstart
    cases cs with
    | nil => cases hstart
    | cons d ds =>
        rw [List.flatMap_cons] at hbytes hstart
        rw [decode?_utf8EncodeChar_append] at hstart
        obtain rfl : d = c := Char.toNat_inj.1 (Option.some.inj hstart)
        rw [List.forall_mem_cons] at hwhite
        exact ⟨hwhite.1, ds, List.append_cancel_left hbytes, hwhite.2⟩
  · rintro ⟨hc, cs, rfl, hwhite⟩
    exact ⟨c :: cs, rfl, List.forall_mem_cons.2 ⟨hc, hwhite⟩⟩

theorem not_blank_of_stray {b : UInt8} {rest : Bytes} (hdecode : decode? (b :: rest) = none) :
    ¬ Blank (b :: rest) := by
  rintro ⟨cs, hbytes, _⟩
  cases cs with
  | nil => cases hbytes
  | cons c cs =>
      rw [hbytes, List.flatMap_cons, decode?_utf8EncodeChar_append] at hdecode
      cases hdecode

theorem all_blankPiece_iff (line : Bytes) (offset : Nat) :
    (piecesAt trailing offset line).all blankPiece = true ↔ Blank line := by
  induction line using pieces_induction trailing generalizing offset with
  | nil => simp [blank_nil]
  | cons b rest ih =>
      rw [piecesAt_cons, List.all_cons, Bool.and_eq_true, ih, blankPiece, Piece.bytes]
      simp only
      cases hdecode : decode? (b :: rest) with
      | none =>
          have hstray : first (b :: rest.take (trailing (b :: rest))) = replacement := by
            rw [take_trailing_of_none hdecode, first, decode?_singleton_of_none hdecode]
            rfl
          have hblank : isBlank replacement = false := by decide
          simp [hstray, hblank, not_blank_of_stray hdecode]
      | some n =>
          obtain ⟨c, rfl⟩ := exists_char ((decode?_eq_some_iff _ _).1 hdecode).1
          have htake := take_trailing_of_some hdecode
          have hsplit : b :: rest =
              String.utf8EncodeChar c ++ rest.drop (trailing (b :: rest)) := by
            rw [← encode_toNat, ← htake, List.cons_append, List.take_append_drop]
          have hblank : Blank (b :: rest) ↔
              c.toNat ∈ whiteSpace ∧ Blank (rest.drop (trailing (b :: rest))) := by
            rw [← blank_append_iff, ← hsplit]
          rw [htake, first_encode (isScalar_toNat c), isBlank_iff, hblank]

theorem allBlank_iff (line : Bytes) : allBlank line = true ↔ Blank line :=
  all_blankPiece_iff line 0

instance (line : Bytes) : Decidable (Blank line) :=
  decidable_of_iff _ (allBlank_iff line)

end Accumulator.Proofs.Blanks
