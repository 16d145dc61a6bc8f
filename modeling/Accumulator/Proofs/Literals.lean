import Accumulator.Proofs.Utf8
import Accumulator.Text.Quoted
import Mathlib.Algebra.Group.Nat.Defs
/-!
# Numerals and quoted characters

What a reader makes of the texts in a listing.  A decimal numeral is the one of the standard library,
and so is a hexadecimal one with zeros in front.  A quoted character is escaped in one of several ways,
and `unescape` finds out which character it was.
-/

namespace Accumulator.Proofs.Literals

open Text Text.Utf8 Utf8

/-! ## Texts -/

def utf8 (text : String) : Bytes :=
  text.toList.flatMap String.utf8EncodeChar

theorem utf8_append (a b : String) : utf8 (a ++ b) = utf8 a ++ utf8 b := by
  simp [utf8]

theorem utf8_ofList (cs : List Char) : utf8 (String.ofList cs) = cs.flatMap String.utf8EncodeChar := by
  simp [utf8]

theorem utf8EncodeChar_of_lt {c : Char} (hc : c.toNat < 0x80) :
    String.utf8EncodeChar c = [Bytes.ofChar c] := by
  rw [← encode_toNat, encode, if_pos hc]
  rfl

theorem flatMap_utf8EncodeChar_of_lt {cs : List Char} (hcs : ∀ c ∈ cs, c.toNat < 0x80) :
    cs.flatMap String.utf8EncodeChar = cs.map Bytes.ofChar := by
  induction cs with
  | nil => rfl
  | cons c cs ih =>
      rw [List.forall_mem_cons] at hcs
      rw [List.flatMap_cons, List.map_cons, utf8EncodeChar_of_lt hcs.1, ih hcs.2,
        List.singleton_append]

/-! ## Decimal numerals -/

theorem decimalNat_eq_utf8 (n : Nat) : decimalNat n = utf8 n.repr := by
  rw [Nat.repr_eq_ofList_toDigits, utf8_ofList, flatMap_utf8EncodeChar_of_lt, decimalNat]
  intro c hc
  have hdigit := Nat.isDigit_of_mem_toDigits (by decide) (by decide) hc
  simp only [Char.isDigit, Bool.and_eq_true, decide_eq_true_eq] at hdigit
  exact Nat.lt_of_le_of_lt hdigit.2 (by decide)

theorem decimal_eq_utf8 (n : Int) : decimal n = utf8 (toString n) := by
  rw [Int.toString_eq_repr, Int.repr_eq_if, decimal]
  by_cases hn : n < 0
  · have hnot : ¬ 0 ≤ n := by omega
    have hvalue : n.natAbs = (-n).toNat := by omega
    rw [if_pos hn, if_neg hnot, utf8_append, decimalNat_eq_utf8, hvalue]
    rfl
  · have hnot : 0 ≤ n := by omega
    have hvalue : n.natAbs = n.toNat := by omega
    rw [if_neg hn, if_pos hnot, decimalNat_eq_utf8, hvalue]

/-! ## Hexadecimal numerals -/

def hexDigits (width n : Nat) : List Char :=
  (Nat.toDigits 16 n).leftpad width '0'

/-- Induction that takes off the last digit of a hexadecimal numeral. -/
theorem toDigits_induction {motive : Nat → List Char → Prop}
    (single : ∀ n < 16, motive n [n.digitChar])
    (concat : ∀ n digits, motive (n / 16) digits → motive n (digits ++ [(n % 16).digitChar]))
    (n : Nat) : motive n (Nat.toDigits 16 n) := by
  induction n using Nat.strongRecOn with
  | ind n ih =>
      rw [Nat.toDigits_eq_if (by decide)]
      by_cases hn : n < 16
      · rw [if_pos hn]
        exact single n hn
      · rw [if_neg hn]
        exact concat n _ (ih (n / 16) (by omega))

theorem digitChar_lt {d : Nat} (hd : d < 16) : d.digitChar.toNat < 0x80 := by
  decide +revert

theorem hexDigit_lowerTen {d : Nat} (hd : d < 16) :
    hexDigit lowerTen d = Bytes.ofChar d.digitChar := by
  decide +revert

theorem hexDigits_of_lt {n : Nat} (hn : n < 16) (width : Nat) :
    hexDigits (width + 1) n = List.replicate width '0' ++ [n.digitChar] := by
  rw [hexDigits, Nat.toDigits_of_lt_base hn]
  rfl

theorem hexDigits_succ {width n : Nat} (hwidth : 0 < width) :
    hexDigits (width + 1) n = hexDigits width (n / 16) ++ [(n % 16).digitChar] := by
  obtain ⟨w, rfl⟩ := Nat.exists_eq_add_one.2 hwidth
  by_cases hn : n < 16
  · have hzero : (0 : Nat).digitChar = '0' := rfl
    rw [hexDigits_of_lt hn, Nat.div_eq_of_lt hn, hexDigits_of_lt (by decide), hzero,
      ← List.replicate_succ', Nat.mod_eq_of_lt hn]
  · have hdigits := Nat.toDigits_of_base_le (by decide : 1 < 16) (Nat.le_of_not_lt hn)
    rw [hexDigits, hdigits, List.leftpad, List.length_append, List.length_singleton,
      Nat.add_sub_add_right, ← List.append_assoc]
    rfl

theorem hexFixed_eq {width n : Nat} (hwidth : 0 < width) (hn : n < 16 ^ width) :
    hexFixed lowerTen width n = (hexDigits width n).map Bytes.ofChar := by
  induction width generalizing n with
  | zero => omega
  | succ width ih =>
      rw [hexFixed, hexDigit_lowerTen (Nat.mod_lt n (by decide))]
      by_cases hlast : width = 0
      · subst hlast
        have hlow : n < 16 := by simpa using hn
        rw [hexFixed, hexDigits_of_lt hlow, Nat.mod_eq_of_lt hlow]
        rfl
      · have hrest : n / 16 < 16 ^ width := by
          rw [Nat.div_lt_iff_lt_mul (by decide)]
          exact Nat.lt_of_lt_of_eq hn (Nat.pow_succ ..)
        rw [ih (by omega) hrest, hexDigits_succ (by omega), List.map_append]
        rfl

theorem hexLength_eq {n : Nat} (hn : n ≠ 0) : hexLength n = (Nat.toDigits 16 n).length := by
  have hpow (k : Nat) : (16 : Nat) ^ k = 2 ^ (4 * k) := by rw [Nat.pow_mul]
  have hupper : (Nat.toDigits 16 n).length ≤ n.log2 / 4 + 1 := by
    rw [Nat.length_toDigits_le_iff (by decide) (by omega), hpow]
    exact (Nat.log2_lt hn).1 (by omega)
  have hlower : ¬ (Nat.toDigits 16 n).length ≤ n.log2 / 4 := by
    intro hshort
    have hpos : 0 < n.log2 / 4 := Nat.lt_of_lt_of_le Nat.length_toDigits_pos hshort
    rw [Nat.length_toDigits_le_iff (by decide) hpos, hpow, ← Nat.log2_lt hn] at hshort
    omega
  rw [hexLength, if_neg hn]
  omega

theorem hex_eq {width : Nat} (hwidth : 0 < width) (n : Nat) :
    hex lowerTen width n = (hexDigits width n).map Bytes.ofChar := by
  have hpos : 0 < (Nat.toDigits 16 n).length := Nat.length_toDigits_pos
  have hlength : max width (hexLength n) = max width (Nat.toDigits 16 n).length := by
    by_cases hn : n = 0
    · subst hn
      have hone : (Nat.toDigits 16 0).length = 1 := rfl
      have hnone : hexLength 0 = 0 := rfl
      omega
    · rw [hexLength_eq hn]
  have hfits : n < 16 ^ max width (Nat.toDigits 16 n).length := by
    rw [← Nat.length_toDigits_le_iff (by decide) (by omega)]
    omega
  have hsame : hexDigits (max width (Nat.toDigits 16 n).length) n = hexDigits width n := by
    unfold hexDigits List.leftpad
    congr 2
    omega
  rw [hex, hlength, hexFixed_eq (by omega) hfits, hsame]

theorem mem_hexDigits {width n : Nat} {c : Char} (hc : c ∈ hexDigits width n) :
    ∃ d, d < 16 ∧ c = d.digitChar := by
  rcases List.mem_append.1 hc with hzero | hdigit
  · exact ⟨0, by decide, List.eq_of_mem_replicate hzero⟩
  · clear hc
    revert hdigit
    refine toDigits_induction (motive := fun _ digits => c ∈ digits → ∃ d, d < 16 ∧ c = d.digitChar)
      ?_ ?_ n
    · intro n hn hdigit
      exact ⟨n, hn, List.mem_singleton.1 hdigit⟩
    · intro n digits ih hdigit
      rcases List.mem_append.1 hdigit with hearlier | hlast
      · exact ih hearlier
      · exact ⟨n % 16, Nat.mod_lt n (by decide), List.mem_singleton.1 hlast⟩

theorem utf8_hexDigits (width n : Nat) :
    utf8 (String.ofList (hexDigits width n)) = (hexDigits width n).map Bytes.ofChar := by
  rw [utf8_ofList, flatMap_utf8EncodeChar_of_lt]
  intro c hc
  obtain ⟨d, hd, rfl⟩ := mem_hexDigits hc
  exact digitChar_lt hd

/-! ## Quoted characters -/

def digitValue (c : Char) : Nat :=
  if c.isDigit then c.toNat - '0'.toNat else c.toNat - 'a'.toNat + 10

def hexValue (digits : List Char) : Nat :=
  digits.foldl (fun n c => 16 * n + digitValue c) 0

/-- The letters of short escapes, with the code points that they stand for. -/
def shortEscapes : List (Char × Nat) :=
  [('a', 7), ('b', 8), ('t', 9), ('n', 10), ('v', 11), ('f', 12), ('r', 13), ('\'', 39), ('\\', 92)]

def longEscapes : List (Char × Nat) :=
  [('x', 2), ('u', 4), ('U', 8)]

/-- The character that stands between single quotes. -/
def unescape : List Char → Option Char
  | [] => none
  | [c] => if c = '\'' ∨ c = '\\' then none else some c
  | [slash, letter] =>
      if slash = '\\' then (shortEscapes.lookup letter).map Char.ofNat else none
  | slash :: letter :: digits =>
      if slash = '\\' ∧ longEscapes.lookup letter = some digits.length then
        some (Char.ofNat (hexValue digits))
      else none

theorem digitValue_digitChar {d : Nat} (hd : d < 16) : digitValue d.digitChar = d := by
  decide +revert

theorem hexValue_concat (digits : List Char) (c : Char) :
    hexValue (digits ++ [c]) = 16 * hexValue digits + digitValue c := by
  simp [hexValue]

theorem hexValue_zeros_append (k : Nat) (digits : List Char) :
    hexValue (List.replicate k '0' ++ digits) = hexValue digits := by
  induction k with
  | zero => rfl
  | succ k ih => exact ih

theorem hexValue_hexDigits (width n : Nat) : hexValue (hexDigits width n) = n := by
  rw [hexDigits, List.leftpad, hexValue_zeros_append]
  refine toDigits_induction (motive := fun n digits => hexValue digits = n) ?_ ?_ n
  · intro n hn
    exact (Nat.zero_add _).trans (digitValue_digitChar hn)
  · intro n digits ih
    rw [hexValue_concat, ih, digitValue_digitChar (Nat.mod_lt n (by decide)), Nat.div_add_mod]

theorem length_hexDigits {width n : Nat} (hwidth : 0 < width) (hn : n < 16 ^ width) :
    (hexDigits width n).length = width := by
  rw [← Nat.length_toDigits_le_iff (by decide) hwidth] at hn
  rw [hexDigits, List.length_leftpad]
  omega

theorem unescape_long {letter : Char} {width : Nat} (c : Char) (hwidth : 0 < width)
    (hletter : longEscapes.lookup letter = some width) (hc : c.toNat < 16 ^ width) :
    unescape ('\\' :: letter :: hexDigits width c.toNat) = some c := by
  have hlength := length_hexDigits hwidth hc
  have hvalue := hexValue_hexDigits width c.toNat
  generalize hexDigits width c.toNat = digits at hlength hvalue
  cases digits with
  | nil => exact absurd hlength (Nat.ne_of_lt hwidth)
  | cons d digits =>
      rw [unescape, hlength, if_pos ⟨rfl, hletter⟩, hvalue, Char.ofNat_toNat]
      exact List.cons_ne_nil d digits

theorem lookup_of_shortEscape {n : Nat} {letter : Char} (hletter : shortEscape? n = some letter) :
    shortEscapes.lookup letter = some n ∧ letter.toNat < 0x80 := by
  unfold shortEscape? at hletter
  split at hletter
  all_goals cases hletter
  all_goals decide

/-- The characters stand for `c` between single quotes, and the bytes are their UTF-8 form. -/
def Escapes (c : Char) (bytes : Bytes) : Prop :=
  ∃ cs, bytes = cs.flatMap String.utf8EncodeChar ∧ unescape cs = some c

theorem escapes_long {letter : Char} {width : Nat} (c : Char) (hwidth : 0 < width)
    (hletter : longEscapes.lookup letter = some width) (hlow : letter.toNat < 0x80)
    (hc : c.toNat < 16 ^ width) :
    Escapes c (backslash :: Bytes.ofChar letter :: hexFixed lowerTen width c.toNat) := by
  refine ⟨_, ?_, unescape_long c hwidth hletter hc⟩
  rw [hexFixed_eq hwidth hc, List.flatMap_cons, List.flatMap_cons, ← utf8_ofList, utf8_hexDigits,
    utf8EncodeChar_of_lt hlow]
  rfl

theorem escapes_escapeChar (c : Char) : Escapes c (escapeChar singleQuote c.toNat) := by
  have hslash : String.utf8EncodeChar '\\' = [backslash] := rfl
  have hlt := isScalar_lt (isScalar_toNat c)
  unfold escapeChar
  by_cases hquoted : c.toNat = singleQuote.toNat ∨ c.toNat = backslash.toNat
  · rw [if_pos hquoted]
    refine ⟨['\\', c], by simp [hslash, encode_toNat], ?_⟩
    rcases hquoted with hc | hc
    · obtain rfl : c = '\'' := Char.toNat_inj.1 hc
      rfl
    · obtain rfl : c = '\\' := Char.toNat_inj.1 hc
      rfl
  · rw [if_neg hquoted]
    by_cases hprintable : isPrintable c.toNat = true
    · rw [if_pos hprintable]
      refine ⟨[c], by simp [encode_toNat], ?_⟩
      rw [unescape, if_neg]
      rintro (rfl | rfl)
      · exact hquoted (.inl rfl)
      · exact hquoted (.inr rfl)
    · rw [if_neg hprintable]
      cases hshort : shortEscape? c.toNat with
      | some letter =>
          obtain ⟨hlookup, hlow⟩ := lookup_of_shortEscape hshort
          refine ⟨['\\', letter], by simp [hslash, utf8EncodeChar_of_lt hlow], ?_⟩
          rw [unescape, if_pos rfl, hlookup, Option.map_some, Char.ofNat_toNat]
      | none =>
          simp only
          by_cases hcontrol : c.toNat < 0x20 ∨ c.toNat = 0x7F
          · rw [if_pos hcontrol]
            exact escapes_long c (by decide) rfl (by decide) (by omega)
          · rw [if_neg hcontrol]
            by_cases hplane : c.toNat < 0x10000
            · rw [if_pos hplane]
              exact escapes_long c (by decide) rfl (by decide) (by omega)
            · rw [if_neg hplane]
              exact escapes_long c (by decide) rfl (by decide) (by omega)

/-- The character of a token.  A number that is no scalar value reads as the replacement character. -/
def charOf (c : Int) : Char :=
  if 0 ≤ c ∧ c.toNat.isValidChar then Char.ofNat c.toNat else Char.ofNat 0xFFFD

theorem quoteChar_eq_utf8 (c : Int) :
    ∃ cs, quoteChar c = utf8 ("'" ++ String.ofList cs ++ "'") ∧ unescape cs = some (charOf c) := by
  have hscalar : (if 0 ≤ c ∧ IsScalar c.toNat then c.toNat else replacement) =
      (charOf c).toNat := by
    have hsame : (0 ≤ c ∧ IsScalar c.toNat) = (0 ≤ c ∧ c.toNat.isValidChar) := rfl
    unfold charOf
    by_cases hc : 0 ≤ c ∧ c.toNat.isValidChar
    · obtain ⟨d, hd⟩ := exists_char hc.2
      rw [if_pos hc, if_pos (hsame ▸ hc), ← hd, Char.ofNat_toNat]
    · rw [if_neg hc, if_neg (hsame ▸ hc)]
      rfl
  obtain ⟨cs, hbytes, hread⟩ := escapes_escapeChar (charOf c)
  refine ⟨cs, ?_, hread⟩
  have hquote : utf8 "'" = [singleQuote] := rfl
  rw [quoteChar, hscalar, hbytes, utf8_append, utf8_append, hquote, utf8_ofList]

end Accumulator.Proofs.Literals
