import Accumulator.Proofs.Scanning
import Mathlib.Data.List.Basic
/-!
# The meaning of a source

A source is a list of instructions to an accumulator, one per byte.  The rule is stated on integers
and reduced to 64 bits after every byte, with no mention of characters, tokens or code; the second
half shows that reading the source character by character comes to the same.
-/

namespace Accumulator.Proofs.Meaning

open Pieces Scanning Text.Utf8 Utf8

def effect (b : UInt8) (n : Int) : Int :=
  if b = Bytes.ofChar '+' then n + 1
  else if b = Bytes.ofChar '-' then n - 1
  else if b = Bytes.ofChar '*' then 2 * n
  else if b = Bytes.ofChar '/' then n.tdiv 2
  else n

/-- What a byte does to a word: the result is reduced to 64 bits in two's complement. -/
def wordEffect (v : Int64) (b : UInt8) : Int64 :=
  Int64.ofInt (effect b v.toInt)

def meaning (source : Bytes) : Int64 :=
  source.foldl wordEffect 0

-- Halving rounds toward zero.
example : meaning (Bytes.ofAscii "-*-/") = -1 := by decide

/-! ## Kinds of tokens -/

def act (k : Kind) (v : Int64) : Int64 :=
  match k with
  | .increment => v + 1
  | .decrement => v - 1
  | .double => v <<< 1
  | .halve => v / 2
  | _ => v

def actAll (tokens : List Token) (v : Int64) : Int64 :=
  tokens.foldl (fun v t => act t.kind v) v

theorem ofInt_two_mul (v : Int64) : Int64.ofInt (2 * v.toInt) = v <<< 1 := by
  rw [Int64.ofInt_mul, Int64.ofInt_toInt]
  exact Int64.toInt_inj.1 rfl

theorem ofInt_tdiv_two (v : Int64) : Int64.ofInt (v.toInt.tdiv 2) = v / 2 := by
  have htwo : (2 : Int64).toInt = 2 := rfl
  have hdiv : (v / 2).toInt = v.toInt.tdiv 2 := by
    rw [Int64.toInt_div_of_ne_right v 2 (by decide), htwo]
  rw [← hdiv, Int64.ofInt_toInt]

theorem eq_ofChar_iff (b : UInt8) {char : Char} (hchar : char.toNat < 0x80) :
    b = Bytes.ofChar char ↔ (b.toNat : Int) = (char.toNat : Int) := by
  have htoNat : (Bytes.ofChar char).toNat = char.toNat := toNat_toUInt8 (by omega)
  rw [← UInt8.toNat_inj, htoNat, Int.ofNat_inj]

theorem wordEffect_eq_act (v : Int64) (b : UInt8) :
    wordEffect v b = act (Kind.ofChar b.toNat) v := by
  simp only [wordEffect, effect, Kind.ofChar, eq_ofChar_iff b (show '+'.toNat < 0x80 by decide),
    eq_ofChar_iff b (show '-'.toNat < 0x80 by decide),
    eq_ofChar_iff b (show '*'.toNat < 0x80 by decide),
    eq_ofChar_iff b (show '/'.toNat < 0x80 by decide)]
  by_cases hplus : (b.toNat : Int) = '+'.toNat
  · rw [if_pos hplus, if_pos hplus, Int64.ofInt_add, Int64.ofInt_toInt]
    rfl
  · rw [if_neg hplus, if_neg hplus]
    by_cases hminus : (b.toNat : Int) = '-'.toNat
    · rw [if_pos hminus, if_pos hminus, Int64.ofInt_sub, Int64.ofInt_toInt]
      rfl
    · rw [if_neg hminus, if_neg hminus]
      by_cases hstar : (b.toNat : Int) = '*'.toNat
      · rw [if_pos hstar, if_pos hstar, ofInt_two_mul]
        rfl
      · rw [if_neg hstar, if_neg hstar]
        by_cases hslash : (b.toNat : Int) = '/'.toNat
        · rw [if_pos hslash, if_pos hslash, ofInt_tdiv_two]
          rfl
        · rw [if_neg hslash, if_neg hslash, Int64.ofInt_toInt]
          rfl

/-! ## Characters -/

theorem ofChar_of_ne {b : UInt8} (hplus : b ≠ Bytes.ofChar '+') (hminus : b ≠ Bytes.ofChar '-')
    (hstar : b ≠ Bytes.ofChar '*') (hslash : b ≠ Bytes.ofChar '/') :
    Kind.ofChar b.toNat = .ignored := by
  rw [ne_eq, eq_ofChar_iff b (by decide)] at hplus hminus hstar hslash
  rw [Kind.ofChar, if_neg hplus, if_neg hminus, if_neg hstar, if_neg hslash]

theorem ofChar_ignored {char : Int} (hchar : 0x80 ≤ char) : Kind.ofChar char = .ignored := by
  have hplus : ('+'.toNat : Int) = 43 := rfl
  have hminus : ('-'.toNat : Int) = 45 := rfl
  have hstar : ('*'.toNat : Int) = 42 := rfl
  have hslash : ('/'.toNat : Int) = 47 := rfl
  unfold Kind.ofChar
  rw [if_neg (by omega), if_neg (by omega), if_neg (by omega), if_neg (by omega)]

theorem wordEffect_ignored (v : Int64) {b : UInt8} (hb : 0x80 ≤ b.toNat) : wordEffect v b = v := by
  rw [wordEffect_eq_act, ofChar_ignored (by omega)]
  rfl

theorem foldl_wordEffect_ignored {bytes : Bytes} (hbytes : ∀ b ∈ bytes, 0x80 ≤ b.toNat)
    (v : Int64) : bytes.foldl wordEffect v = v := by
  induction bytes with
  | nil => rfl
  | cons b rest ih =>
      rw [List.foldl_cons, wordEffect_ignored v (hbytes b (by simp))]
      exact ih (fun b hb => hbytes b (by simp [hb]))

/-- A character is one byte of its own kind, or all of its bytes are ignored and so is its token. -/
theorem kind_character {p : Piece} (hp : IsCharacter p) :
    (∃ b : UInt8, p.bytes = [b] ∧ (Token.ofPiece p).kind = Kind.ofChar b.toNat) ∨
      (Token.ofPiece p).kind = .ignored ∧ ∀ b ∈ p.bytes, 0x80 ≤ b.toNat := by
  cases hp with
  | scalar c hscalar hbytes =>
      have hfirst : first p.bytes = c := by
        rw [hbytes, first_encode hscalar]
      simp only [Token.ofPiece, hfirst]
      by_cases hc : c < 0x80
      · have hbyte : c.toUInt8.toNat = c := toNat_toUInt8 (by omega)
        refine .inl ⟨c.toUInt8, ?_, by rw [hbyte]⟩
        rw [hbytes, encode, if_pos hc]
      · refine .inr ⟨ofChar_ignored (by omega), ?_⟩
        rw [hbytes]
        intro b hb
        exact le_of_mem_encode (by omega) (isScalar_lt hscalar) hb
  | stray htail hhead hnone =>
      have hfirst : first p.bytes = replacement := by
        rw [first, hnone]
        rfl
      simp only [Token.ofPiece, hfirst]
      refine .inr ⟨ofChar_ignored (by decide), ?_⟩
      rw [Piece.bytes, htail]
      simpa using hhead

theorem foldl_character {p : Piece} (hp : IsCharacter p) (v : Int64) :
    p.bytes.foldl wordEffect v = act (Token.ofPiece p).kind v := by
  rcases kind_character hp with ⟨b, hbytes, hkind⟩ | ⟨hkind, hbytes⟩
  · rw [hbytes, hkind, List.foldl_cons, List.foldl_nil, wordEffect_eq_act]
  · rw [hkind, foldl_wordEffect_ignored hbytes]
    rfl

theorem actAll_scan (source : Bytes) (v : Int64) :
    actAll (Token.scan source) v = source.foldl wordEffect v := by
  have hsource := flatMap_bytes_piecesAt trailing 0 source
  rw [actAll, Token.scan, cut_eq_piecesAt, List.foldl_map]
  conv => rhs; rw [← hsource, List.foldl_flatMap]
  apply List.foldl_ext
  intro v p hp
  exact (foldl_character (isCharacter_of_mem hp) v).symm

end Accumulator.Proofs.Meaning
