import Accumulator.Listing
import Accumulator.Proofs.Reading
import Accumulator.Proofs.Utf8
/-!
# Texts of one line

Numerals, quoted characters, comments and rendered instructions hold no newline, whatever the numbers
and characters in them are.  A text that is put together from such lines falls apart into them again.
-/

namespace Accumulator.Proofs.Lines

open Machine Reading Text Text.Utf8 Utf8

def OneLine (text : Bytes) : Prop :=
  Bytes.newline ∉ text

instance (text : Bytes) : Decidable (OneLine text) :=
  inferInstanceAs (Decidable (_ ∉ text))

@[simp] theorem oneLine_append (a b : Bytes) : OneLine (a ++ b) ↔ OneLine a ∧ OneLine b := by
  simp [OneLine]

@[simp] theorem oneLine_cons (b : UInt8) (text : Bytes) :
    OneLine (b :: text) ↔ b ≠ Bytes.newline ∧ OneLine text := by
  rw [OneLine, List.mem_cons, not_or, ne_comm]
  rfl

/-! ## Numerals -/

theorem toNat_ofChar_of_isDigit {c : Char} (hc : c.isDigit = true) :
    48 ≤ (Bytes.ofChar c).toNat ∧ (Bytes.ofChar c).toNat ≤ 57 := by
  simp only [Char.isDigit, Bool.and_eq_true, decide_eq_true_eq, ge_iff_le,
    UInt32.le_iff_toNat_le] at hc
  have hlower : 48 ≤ c.toNat := hc.1
  have hupper : c.toNat ≤ 57 := hc.2
  have hbyte : (Bytes.ofChar c).toNat = c.toNat := toNat_toUInt8 (by omega)
  omega

theorem toNat_of_mem_decimalNat {n : Nat} {b : UInt8} (hb : b ∈ decimalNat n) :
    48 ≤ b.toNat ∧ b.toNat ≤ 57 := by
  obtain ⟨c, hc, rfl⟩ := List.mem_map.1 hb
  exact toNat_ofChar_of_isDigit (Nat.isDigit_of_mem_toDigits (by decide) (by decide) hc)

theorem toNat_of_mem_decimal {n : Int} {b : UInt8} (hb : b ∈ decimal n) :
    45 ≤ b.toNat ∧ b.toNat ≤ 57 := by
  have hsign : (Bytes.ofChar '-').toNat = 45 := rfl
  unfold decimal at hb
  by_cases hn : n < 0
  · rw [if_pos hn, List.mem_cons] at hb
    rcases hb with rfl | hb
    · omega
    · have hdigit := toNat_of_mem_decimalNat hb
      omega
  · rw [if_neg hn] at hb
    have hdigit := toNat_of_mem_decimalNat hb
    omega

theorem oneLine_decimal (n : Int) : OneLine (decimal n) := by
  intro hmem
  have hdigit := toNat_of_mem_decimal hmem
  have hnewline : Bytes.newline.toNat = 10 := rfl
  omega

theorem mem_hexFixed {ten : UInt8} {width n : Nat} {b : UInt8} (hb : b ∈ hexFixed ten width n) :
    ∃ d < 16, b = hexDigit ten d := by
  induction width generalizing n with
  | zero => exact absurd hb List.not_mem_nil
  | succ width ih =>
      rw [hexFixed, List.mem_append, List.mem_singleton] at hb
      rcases hb with hb | rfl
      · exact ih hb
      · exact ⟨n % 16, Nat.mod_lt n (by decide), rfl⟩

theorem oneLine_hexFixed {ten : UInt8} (hten : ∀ d < 16, hexDigit ten d ≠ Bytes.newline)
    (width n : Nat) : OneLine (hexFixed ten width n) := by
  intro hmem
  obtain ⟨d, hd, heq⟩ := mem_hexFixed hmem
  exact hten d hd heq.symm

theorem oneLine_hexLower (width n : Nat) : OneLine (hexFixed lowerTen width n) :=
  oneLine_hexFixed (by decide) width n

/-! ## Quoted characters -/

theorem oneLine_encode {c : Nat} (hc : c < 0x110000) (hne : c ≠ 10) : OneLine (encode c) := by
  intro hmem
  have hnewline : Bytes.newline.toNat = 10 := rfl
  by_cases hlow : c < 0x80
  · rw [encode, if_pos hlow, List.mem_singleton] at hmem
    have hbyte : c.toUInt8.toNat = c := toNat_toUInt8 (by omega)
    rw [← hmem] at hbyte
    omega
  · have hhigh := le_of_mem_encode (by omega) hc hmem
    omega

theorem oneLine_shortEscape {c : Nat} {letter : Char} (hc : shortEscape? c = some letter) :
    OneLine [backslash, Bytes.ofChar letter] := by
  unfold shortEscape? at hc
  split at hc
  all_goals cases hc <;> decide

theorem oneLine_escapeChar {quote : UInt8} (hquote : quote ≠ Bytes.newline) {c : Nat}
    (hc : c < 0x110000) : OneLine (escapeChar quote c) := by
  have hprintable : isPrintable 10 = false := by decide +kernel
  unfold escapeChar
  by_cases hquoted : c = quote.toNat ∨ c = backslash.toNat
  · rw [if_pos hquoted, oneLine_cons]
    refine ⟨by decide, oneLine_encode hc ?_⟩
    intro heq
    subst heq
    rcases hquoted with hq | hb
    · exact hquote (UInt8.toNat_inj.1 hq.symm)
    · exact absurd hb (by decide)
  · rw [if_neg hquoted]
    by_cases hshown : isPrintable c = true
    · rw [if_pos hshown]
      apply oneLine_encode hc
      intro heq
      rw [heq, hprintable] at hshown
      cases hshown
    · rw [if_neg hshown]
      cases hshort : shortEscape? c with
      | some letter => exact oneLine_shortEscape hshort
      | none =>
          by_cases hcontrol : c < 0x20 ∨ c = 0x7F
          · simp only [if_pos hcontrol, oneLine_append]
            exact ⟨by decide, oneLine_hexLower 2 c⟩
          · by_cases hshort : c < 0x10000
            · simp only [if_neg hcontrol, if_pos hshort, oneLine_append]
              exact ⟨by decide, oneLine_hexLower 4 c⟩
            · simp only [if_neg hcontrol, if_neg hshort, oneLine_append]
              exact ⟨by decide, oneLine_hexLower 8 c⟩

theorem oneLine_quoteChar (c : Int) : OneLine (quoteChar c) := by
  have hscalar : (if 0 ≤ c ∧ IsScalar c.toNat then c.toNat else replacement) < 0x110000 := by
    by_cases hc : 0 ≤ c ∧ IsScalar c.toNat
    · rw [if_pos hc]
      exact isScalar_lt hc.2
    · rw [if_neg hc]
      decide
  simp only [quoteChar, oneLine_append]
  exact ⟨⟨by decide, oneLine_escapeChar (by decide) hscalar⟩, by decide⟩

/-! ## Lines of a listing -/

theorem oneLine_name (k : Kind) : OneLine k.name := by
  cases k with
  | other code =>
      simp only [Kind.name, oneLine_append]
      exact ⟨⟨by decide, oneLine_decimal code⟩, by decide⟩
  | _ => decide

theorem oneLine_comment (t : Token) : OneLine t.comment := by
  simp only [Token.comment, oneLine_append]
  exact ⟨⟨⟨⟨⟨by decide, oneLine_quoteChar t.char⟩, by decide⟩, oneLine_decimal t.offset⟩, by decide⟩,
    oneLine_name t.kind⟩

theorem oneLine_joinWith {separator : Bytes} (hseparator : OneLine separator) {parts : List Bytes}
    (hparts : ∀ part ∈ parts, OneLine part) : OneLine (Bytes.joinWith separator parts) := by
  cases parts with
  | nil => exact List.not_mem_nil
  | cons part parts =>
      rw [Bytes.joinWith, oneLine_append]
      refine ⟨hparts part (by simp), ?_⟩
      intro hmem
      obtain ⟨other, hother, hin⟩ := List.mem_flatMap.1 hmem
      exact ((oneLine_append _ _).2 ⟨hseparator, hparts other (by simp [hother])⟩) hin

theorem oneLine_hexDump (d : Decoded) : OneLine d.hexDump := by
  apply oneLine_joinWith (by decide)
  intro part hpart
  obtain ⟨b, _, rfl⟩ := List.mem_map.1 hpart
  exact oneLine_hexFixed (by decide) 2 b.toNat

theorem oneLine_text (d : Decoded) : OneLine d.text := by
  unfold Decoded.text
  cases d.op with
  | none => decide
  | some op => cases op <;> decide

theorem oneLine_padRight (width : Nat) {text : Bytes} (htext : OneLine text) :
    OneLine (Bytes.padRight width text) := by
  rw [Bytes.padRight, oneLine_append]
  refine ⟨htext, ?_⟩
  intro hmem
  exact absurd (List.eq_of_mem_replicate hmem) (by decide)

theorem oneLine_render (d : Decoded) : OneLine d.render := by
  simp only [Decoded.render, oneLine_append]
  exact ⟨⟨⟨⟨oneLine_hexLower _ _, by decide⟩, oneLine_padRight 21 (oneLine_hexDump d)⟩, by decide⟩,
    oneLine_text d⟩

/-! ## Lines one after the other -/

theorem segments_line_append {text : Bytes} (htext : OneLine text) (rest : Bytes) :
    segments (Bytes.line text ++ rest) = text :: segments rest := by
  induction text with
  | nil => exact segments_newline rest
  | cons b text ih =>
      obtain ⟨hb, htext'⟩ := (oneLine_cons b text).1 htext
      have hline : Bytes.line (b :: text) ++ rest = b :: (Bytes.line text ++ rest) := rfl
      rw [hline, segments_cons hb, ih htext', List.modifyHead_cons]

theorem segments_flatMap_line {texts : List Bytes} (htexts : ∀ text ∈ texts, OneLine text) :
    segments (texts.flatMap Bytes.line) = texts ++ [[]] := by
  induction texts with
  | nil => rfl
  | cons text texts ih =>
      rw [List.flatMap_cons, segments_line_append (htexts text (by simp)),
        ih (fun other hother => htexts other (by simp [hother])), List.cons_append]

end Accumulator.Proofs.Lines
