import Accumulator.Proofs.Annotations
import Accumulator.Proofs.Lossless
/-!
# Reading code off its listing

A listing shows every byte of the code, whatever the code is and whatever its mappings say.  The
reader here knows nothing of instructions or tokens: it skips the comment lines and takes the digits
in the column behind the offset of the others.
-/

namespace Accumulator.Proofs.ListedCode

open Annotations Lines Lossless Machine Pieces Program Reading Text

/-! ## The reader -/

def digitValue (digit : UInt8) : Nat :=
  if digit < upperTen then digit.toNat - '0'.toNat else digit.toNat - 'A'.toNat + 10

def bytesOfDigits : Bytes → Bytes
  | high :: low :: rest => (16 * digitValue high + digitValue low).toUInt8 :: bytesOfDigits rest
  | _ => []

def isComment (line : Bytes) : Bool :=
  line.head? == some (Bytes.ofChar ';')

def isVisible (b : UInt8) : Bool :=
  b != Bytes.space

/-- The 21 characters behind the offset of a line and the two spaces after it. -/
def column (line : Bytes) : Bytes :=
  ((line.dropWhile isVisible).drop 2).take 21

def lineCode (line : Bytes) : Bytes :=
  bytesOfDigits ((column line).filter isVisible)

/-- The code that a text shows.  Behind its last newline there is an empty line, which shows none. -/
def codeOf (text : Bytes) : Bytes :=
  ((segments text).filter fun line => !isComment line).flatMap lineCode

/-! ## Digits -/

theorem digitValue_hexDigit : ∀ d < 16, digitValue (hexDigit upperTen d) = d := by
  decide

theorem isVisible_hexLower : ∀ d < 16, isVisible (hexDigit lowerTen d) = true := by
  decide

theorem isVisible_hexUpper : ∀ d < 16, isVisible (hexDigit upperTen d) = true := by
  decide

theorem hexByteUpper_eq (b : UInt8) :
    hexByteUpper b = [hexDigit upperTen (b.toNat / 16), hexDigit upperTen (b.toNat % 16)] := by
  have hhigh : b.toNat / 16 % 16 = b.toNat / 16 := by
    have hlt := b.toNat_lt
    omega
  simp only [hexByteUpper, hexFixed, hhigh, List.nil_append, List.cons_append]

theorem bytesOfDigits_hexByteUpper_append (b : UInt8) (rest : Bytes) :
    bytesOfDigits (hexByteUpper b ++ rest) = b :: bytesOfDigits rest := by
  have hlt := b.toNat_lt
  have hvalue : 16 * (b.toNat / 16) + b.toNat % 16 = b.toNat := by omega
  rw [hexByteUpper_eq, List.cons_append, List.cons_append, List.nil_append, bytesOfDigits,
    digitValue_hexDigit _ (by omega), digitValue_hexDigit _ (by omega), hvalue]
  exact congrArg (· :: bytesOfDigits rest) UInt8.ofNat_toNat

theorem bytesOfDigits_flatMap (bytes : Bytes) :
    bytesOfDigits (bytes.flatMap hexByteUpper) = bytes := by
  induction bytes with
  | nil => rfl
  | cons b bytes ih => rw [List.flatMap_cons, bytesOfDigits_hexByteUpper_append, ih]

/-! ## The column -/

theorem filter_hexByteUpper (b : UInt8) : (hexByteUpper b).filter isVisible = hexByteUpper b := by
  apply List.filter_eq_self.2
  intro digit hdigit
  obtain ⟨d, hd, rfl⟩ := mem_hexFixed hdigit
  exact isVisible_hexUpper d hd

theorem filter_joinWith (bytes : Bytes) :
    (Bytes.joinWith [Bytes.space] (bytes.map hexByteUpper)).filter isVisible =
      bytes.flatMap hexByteUpper := by
  have hspaced (b : UInt8) :
      ([Bytes.space] ++ hexByteUpper b).filter isVisible = hexByteUpper b := by
    rw [List.filter_append, filter_hexByteUpper]
    rfl
  cases bytes with
  | nil => rfl
  | cons b bytes =>
      rw [List.map_cons, Bytes.joinWith, List.filter_append, filter_hexByteUpper, List.flatMap_map,
        List.filter_flatMap, List.flatMap_cons]
      simp only [hspaced]

theorem filter_padRight (width : Nat) (text : Bytes) :
    (Bytes.padRight width text).filter isVisible = text.filter isVisible := by
  rw [Bytes.padRight, List.filter_append, List.filter_replicate_of_neg (by decide), List.append_nil]

theorem length_flatMap_spaced (bytes : Bytes) :
    ((bytes.map hexByteUpper).flatMap ([Bytes.space] ++ ·)).length = 3 * bytes.length := by
  induction bytes with
  | nil => rfl
  | cons b bytes ih =>
      rw [List.map_cons, List.flatMap_cons, List.length_append, ih, hexByteUpper_eq]
      simp only [List.length_append, List.length_cons, List.length_nil]
      omega

theorem length_hexDump (d : Decoded) : d.hexDump.length = 3 * d.bytes.length - 1 := by
  rw [Decoded.hexDump, Piece.bytes, List.map_cons, Bytes.joinWith, List.length_append,
    length_flatMap_spaced, hexByteUpper_eq]
  simp only [List.length_cons, List.length_nil]
  omega

theorem dropWhile_offset (offset : Nat) (rest : Bytes) :
    (hex lowerTen 4 offset ++ Bytes.space :: rest).dropWhile isVisible = Bytes.space :: rest := by
  rw [List.dropWhile_append_of_pos, List.dropWhile_cons_of_neg (by decide)]
  intro digit hdigit
  obtain ⟨d, hd, rfl⟩ := mem_hexFixed hdigit
  exact isVisible_hexLower d hd

theorem column_render {d : Decoded} (hlength : d.bytes.length ≤ 7) :
    column d.render = Bytes.padRight 21 d.hexDump := by
  have hwidth : (Bytes.padRight 21 d.hexDump).length = 21 := by
    rw [Bytes.length_padRight, length_hexDump]
    omega
  have hrender : d.render = hex lowerTen 4 d.offset ++
      Bytes.space :: Bytes.space :: (Bytes.padRight 21 d.hexDump ++ ([Bytes.space] ++ d.text)) := by
    have hspaces : Bytes.ofAscii "  " = [Bytes.space, Bytes.space] := rfl
    rw [Decoded.render, hspaces]
    simp only [List.append_assoc, List.cons_append, List.nil_append]
  rw [column, hrender, dropWhile_offset, List.drop_succ_cons, List.drop_succ_cons, List.drop_zero,
    List.take_left' hwidth]

/-! ## Lines of any code -/

theorem length_bytes_le {code : Bytes} {d : Decoded} (hd : d ∈ disassemble code) :
    d.bytes.length ≤ 7 := by
  cases hop : d.op with
  | none =>
      rw [length_bytes_of_stray hd hop]
      decide
  | some op =>
      rw [bytes_of_op hd hop]
      cases op <;> decide

theorem lineCode_render {code : Bytes} {d : Decoded} (hd : d ∈ disassemble code) :
    lineCode d.render = d.bytes := by
  rw [lineCode, column_render (length_bytes_le hd), filter_padRight, Decoded.hexDump,
    filter_joinWith, bytesOfDigits_flatMap]

theorem isComment_comment (t : Token) : isComment t.comment = true := rfl

theorem isComment_render (d : Decoded) : isComment d.render = false := by
  have hhead : (hex lowerTen 4 d.offset).head? ≠ some (Bytes.ofChar ';') := by
    intro hsemicolon
    obtain ⟨digit, hdigit, heq⟩ := mem_hexFixed (List.mem_of_head? hsemicolon)
    exact absurd heq.symm (by revert digit; decide)
  have hne : hex lowerTen 4 d.offset ≠ [] := by
    apply List.ne_nil_of_length_pos
    rw [hex, length_hexFixed]
    omega
  rw [isComment, Decoded.render, List.append_assoc, List.append_assoc, List.append_assoc,
    List.head?_append_of_ne_nil _ hne]
  exact beq_false_of_ne hhead

def lineTexts (t : Option Token) (d : Decoded) : List Bytes :=
  (t.map Token.comment).toList ++ [d.render]

theorem listing_eq (p : Program) :
    p.listing =
      ((disassemble p.code).flatMap fun d => lineTexts (tokenAt d.offset p.sourceMap) d).flatMap
        Bytes.line := by
  rw [listing, List.flatMap_assoc]
  apply List.flatMap_congr
  intro d _
  have hmark := getElem?_marks p d.offset
  cases htoken : tokenAt d.offset p.sourceMap with
  | none =>
      rw [listingOf_of_none (hmark.trans htoken)]
      simp [lineTexts]
  | some t =>
      rw [listingOf_of_some (hmark.trans htoken)]
      simp [lineTexts]

theorem oneLine_of_mem_lineTexts {t : Option Token} {d : Decoded} {text : Bytes}
    (htext : text ∈ lineTexts t d) : OneLine text := by
  rw [lineTexts, List.mem_append, List.mem_singleton] at htext
  rcases htext with hcomment | rfl
  · rw [Option.mem_toList, Option.map_eq_some_iff] at hcomment
    obtain ⟨t, _, rfl⟩ := hcomment
    exact oneLine_comment t
  · exact oneLine_render d

theorem filter_lineTexts (t : Option Token) (d : Decoded) :
    (lineTexts t d).filter (fun line => !isComment line) = [d.render] := by
  cases t with
  | none => simp [lineTexts, isComment_render]
  | some t => simp [lineTexts, isComment_comment, isComment_render]

theorem flatMap_bytes_disassemble (code : Bytes) :
    (disassemble code).flatMap (·.bytes) = code := by
  rw [disassemble, disassembleWith, List.flatMap_map]
  exact flatMap_bytes_piecesAt (Op.trailing Op.all) 0 code

theorem codeOf_listing (p : Program) : codeOf p.listing = p.code := by
  have hlines : ∀ text ∈ (disassemble p.code).flatMap fun d =>
      lineTexts (tokenAt d.offset p.sourceMap) d, OneLine text := by
    intro text htext
    obtain ⟨d, _, htext⟩ := List.mem_flatMap.1 htext
    exact oneLine_of_mem_lineTexts htext
  have hlast : ([[]].filter fun line => !isComment line).flatMap lineCode = [] := rfl
  rw [codeOf, listing_eq, segments_flatMap_line hlines, List.filter_append, List.flatMap_append,
    hlast, List.append_nil, List.filter_flatMap, List.flatMap_assoc]
  calc
    _ = (disassemble p.code).flatMap (·.bytes) := by
      apply List.flatMap_congr
      intro d hd
      rw [filter_lineTexts, List.flatMap_singleton, lineCode_render hd]
    _ = p.code := flatMap_bytes_disassemble p.code

/-- The code can be read off a listing, whatever bytes it holds and whatever its mappings are.  Hence
two programs with the same listing have the same code. -/
theorem listing_determines_code (p : Program) :
    codeOf p.listing = p.code ∧ ∀ q : Program, q.listing = p.listing → q.code = p.code := by
  refine ⟨codeOf_listing p, ?_⟩
  intro q hlisting
  rw [← codeOf_listing q, hlisting, codeOf_listing]

/-- A token that is a newline of no known kind, mapped in place of another one, and a mapping behind
the end of the code. -/
theorem listing_determines_code_newline :
    let newline : Mapping := ⟨2, .other 9, 10, -1⟩
    let code : Bytes := [0x48, 0x99, 0x90, 0xC3]
    let p : Program := ⟨code, [⟨2, .halve, 47, 0⟩, newline, ⟨70000, .double, 42, 5⟩]⟩
    let q : Program := ⟨code, [newline]⟩
    q.listing = p.listing ∧ q.code = p.code ∧ codeOf p.listing = code := by
  intro newline code p q
  obtain ⟨hcode, hdetermined⟩ := listing_determines_code p
  have hlisting : q.listing = p.listing := by
    rw [listing_eq, listing_eq]
    rfl
  exact ⟨hlisting, hdetermined q hlisting, hcode⟩

end Accumulator.Proofs.ListedCode
