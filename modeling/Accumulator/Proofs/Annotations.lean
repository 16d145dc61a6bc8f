import Accumulator.Proofs.Compilation
import Accumulator.Proofs.Lines
import Accumulator.Proofs.Literals
import Accumulator.Proofs.SourceMap
/-!
# The listing of a compiled program

A listing joins two things that are computed apart: the source map of the encoder and the instruction
boundaries that the disassembler finds, which meet in a table keyed by offset.  For a program they fit
together.  Every mapping stands at the first instruction of its own fragment and at no other, so the
listing is the sequence of fragments, each with its token in front of it.
-/

namespace Accumulator.Proofs.Annotations

open Compilation Disassembly Lines Literals Machine Program Reading SourceMap

/-! ## The table of marks -/

/-- The token of the last mapping of an offset. -/
def tokenAt (offset : Int) : List Mapping → Option Token
  | [] => none
  | m :: ms => (tokenAt offset ms).or (if m.codeOffset = offset then some m.token else none)

theorem getElem?_foldl_insert (offset : Int) (ms : List Mapping) (marks : Std.HashMap Int Token) :
    (ms.foldl (fun marks m => marks.insert m.codeOffset m.token) marks)[offset]? =
      (tokenAt offset ms).or marks[offset]? := by
  induction ms generalizing marks with
  | nil => rfl
  | cons m ms ih =>
      rw [List.foldl_cons, ih, Std.HashMap.getElem?_insert, tokenAt, Option.or_assoc]
      by_cases hm : m.codeOffset = offset
      · rw [if_pos (beq_iff_eq.2 hm), if_pos hm, Option.some_or]
      · rw [if_neg (mt beq_iff_eq.1 hm), if_neg hm, Option.none_or]

theorem getElem?_marks (p : Program) (offset : Int) :
    p.marks[offset]? = tokenAt offset p.sourceMap := by
  rw [marks, getElem?_foldl_insert, Std.HashMap.getElem?_empty, Option.or_none]

theorem tokenAt_mappingsAt_of_lt {offset : Nat} {k : Int} (hk : k < offset) (tokens : List Token) :
    tokenAt k (mappingsAt offset tokens) = none := by
  induction tokens generalizing offset with
  | nil => rfl
  | cons t tokens ih =>
      cases ht : acts t with
      | true =>
          rw [mappingsAt_cons_of_acts _ ht, tokenAt, ih (by omega), if_neg (by simp; omega)]
          rfl
      | false => rw [mappingsAt_cons_of_not_acts _ ht, ih hk]

/-! ## Lines -/

inductive Line where
  | comment (t : Token)
  | instruction (offset : Nat) (op : Op)
  deriving DecidableEq

namespace Line

def text : Line → Bytes
  | comment t => t.comment
  | instruction offset op => (placed offset op).render

def token? : Line → Option Token
  | comment t => some t
  | instruction _ _ => none

def op? : Line → Option Op
  | comment _ => none
  | instruction _ op => some op

end Line

def instructionLines (offset : Nat) : List Op → List Line
  | [] => []
  | op :: ops => .instruction offset op :: instructionLines (offset + op.encoding.length) ops

def kindOps : Kind → List Op
  | .increment => [.inc]
  | .decrement => [.dec]
  | .double => [.shl1]
  | .halve => [.cqo, .movRcx2, .idivRcx]
  | .ignored | .other _ => []

def tokenLines (offset : Nat) : List Token → List Line
  | [] => []
  | t :: tokens =>
      .comment t :: instructionLines offset (kindOps t.kind) ++
        tokenLines (offset + (assemble (kindOps t.kind)).length) tokens

def programLines (tokens : List Token) : List Line :=
  .instruction 0 .zero :: tokenLines 3 (tokens.filter acts) ++
    [.instruction ((encode tokens).code.length - 1) .ret]

def written (lines : List Line) : Bytes :=
  lines.flatMap fun l => Bytes.line l.text

theorem kindOps_eq_fragment (k : Kind) : kindOps k = k.fragment := by
  cases k <;> rfl

theorem tokenLines_cons (offset : Nat) (t : Token) (tokens : List Token) :
    tokenLines offset (t :: tokens) =
      .comment t :: instructionLines offset t.kind.fragment ++
        tokenLines (offset + t.kind.code.length) tokens := by
  rw [tokenLines, kindOps_eq_fragment]
  rfl

theorem written_append (a b : List Line) : written (a ++ b) = written a ++ written b :=
  List.flatMap_append

/-! ## The listing line by line -/

theorem listingOf_of_some {marks : Std.HashMap Int Token} {d : Decoded} {t : Token}
    (hmark : marks[(d.offset : Int)]? = some t) :
    listingOf marks d = Bytes.line t.comment ++ Bytes.line d.render := by
  simp only [listingOf, hmark]

theorem listingOf_of_none {marks : Std.HashMap Int Token} {d : Decoded}
    (hmark : marks[(d.offset : Int)]? = none) : listingOf marks d = Bytes.line d.render := by
  simp only [listingOf, hmark]

theorem length_assemble_cons (op : Op) (ops : List Op) :
    (assemble (op :: ops)).length = op.encoding.length + (assemble ops).length := by
  simp [assemble]

theorem length_encoding_pos (op : Op) : 0 < op.encoding.length :=
  List.length_pos_iff.2 (encoding_ne_nil op)

theorem listing_unmarked {marks : Std.HashMap Int Token} {offset : Nat} {ops : List Op}
    (hnone : ∀ k : Nat, offset ≤ k → k < offset + (assemble ops).length →
      marks[(k : Int)]? = none) :
    (layout offset ops).flatMap (listingOf marks) = written (instructionLines offset ops) := by
  induction ops generalizing offset with
  | nil => rfl
  | cons op ops ih =>
      have hpos := length_encoding_pos op
      rw [length_assemble_cons] at hnone
      have hfirst : marks[((placed offset op).offset : Int)]? = none :=
        hnone offset (Nat.le_refl _) (by omega)
      have hrest : (layout (offset + op.encoding.length) ops).flatMap (listingOf marks) =
          written (instructionLines (offset + op.encoding.length) ops) :=
        ih (fun k hlower hupper => hnone k (by omega) (by omega))
      rw [layout, List.flatMap_cons, listingOf_of_none hfirst, hrest]
      rfl

theorem fragment_eq_cons_of_acts {t : Token} (ht : acts t = true) :
    ∃ op ops, t.kind.fragment = op :: ops := by
  cases hfragment : t.kind.fragment with
  | nil =>
      have hpos := length_code_of_acts ht
      rw [Kind.code, hfragment] at hpos
      exact absurd hpos (by decide)
  | cons op ops => exact ⟨op, ops, rfl⟩

theorem listing_fragment {marks : Std.HashMap Int Token} {offset : Nat} {t : Token}
    (ht : acts t = true) (hmark : marks[(offset : Int)]? = some t)
    (hnone : ∀ k : Nat, offset < k → k < offset + t.kind.code.length →
      marks[(k : Int)]? = none) :
    (layout offset t.kind.fragment).flatMap (listingOf marks) =
      written (.comment t :: instructionLines offset t.kind.fragment) := by
  obtain ⟨op, ops, hfragment⟩ := fragment_eq_cons_of_acts ht
  have hlength : t.kind.code.length = op.encoding.length + (assemble ops).length := by
    rw [Kind.code, hfragment]
    exact length_assemble_cons op ops
  have hpos := length_encoding_pos op
  have hfirst : marks[((placed offset op).offset : Int)]? = some t := hmark
  have hrest : (layout (offset + op.encoding.length) ops).flatMap (listingOf marks) =
      written (instructionLines (offset + op.encoding.length) ops) :=
    listing_unmarked (fun k hlower hupper => hnone k (by omega) (by omega))
  rw [hfragment, layout, List.flatMap_cons, listingOf_of_some hfirst, hrest, List.append_assoc]
  rfl

theorem assemble_fragments (tokens : List Token) :
    assemble (tokens.flatMap (·.kind.fragment)) = bodyOf tokens := by
  simp [assemble, bodyOf, Kind.code, List.flatMap_assoc]

/-- The marks from an offset on are those of the tokens whose code starts there.  Going over a token,
its own mark is met at the first instruction of its fragment, and the others lie behind the last. -/
theorem listing_tokens {marks : Std.HashMap Int Token} {offset : Nat} {tokens : List Token}
    (hacts : ∀ t ∈ tokens, acts t = true)
    (hmarks : ∀ k : Nat, offset ≤ k →
      marks[(k : Int)]? = tokenAt k (mappingsAt offset tokens)) :
    (layout offset (tokens.flatMap (·.kind.fragment) ++ [.ret])).flatMap (listingOf marks) =
      written (tokenLines offset tokens ++
        [.instruction (offset + (bodyOf tokens).length) .ret]) := by
  induction tokens generalizing offset with
  | nil =>
      have hret : marks[((placed offset .ret).offset : Int)]? = none :=
        hmarks offset (Nat.le_refl _)
      simp only [List.flatMap_nil, List.nil_append, layout, List.flatMap_cons,
        listingOf_of_none hret]
      rfl
  | cons t tokens ih =>
      have ht : acts t = true := hacts t (by simp)
      have hpos := length_code_of_acts ht
      rw [mappingsAt_cons_of_acts _ ht] at hmarks
      -- The later mappings lie behind this fragment, so inside it only its own one is found.
      have hmark : marks[(offset : Int)]? = some t := by
        rw [hmarks offset (Nat.le_refl _), tokenAt, tokenAt_mappingsAt_of_lt (by omega),
          if_pos rfl, Option.none_or]
      have hnone : ∀ k : Nat, offset < k → k < offset + t.kind.code.length →
          marks[(k : Int)]? = none := by
        intro k hlower hupper
        rw [hmarks k (by omega), tokenAt, tokenAt_mappingsAt_of_lt (by omega),
          if_neg (by simp; omega), Option.none_or]
      have hlater : ∀ k : Nat, offset + t.kind.code.length ≤ k → marks[(k : Int)]? =
          tokenAt k (mappingsAt (offset + t.kind.code.length) tokens) := by
        intro k hk
        rw [hmarks k (by omega), tokenAt, if_neg (by simp; omega), Option.or_none]
      have hrest := ih (fun other hother => hacts other (by simp [hother])) hlater
      have hcode : (assemble t.kind.fragment).length = t.kind.code.length := rfl
      have hbody : offset + (bodyOf (t :: tokens)).length =
          offset + t.kind.code.length + (bodyOf tokens).length := by
        simp [bodyOf, Nat.add_assoc]
      rw [List.flatMap_cons, List.append_assoc, layout_append, List.flatMap_append, hcode, hrest,
        listing_fragment ht hmark hnone, ← written_append, hbody, tokenLines_cons, List.append_assoc]

theorem length_code_pred (tokens : List Token) :
    (encode tokens).code.length - 1 = 3 + (bodyOf (tokens.filter acts)).length := by
  rw [length_code_encode, bodyOf_filter]
  omega

theorem listing_eq_written (tokens : List Token) :
    (encode tokens).listing = written (programLines tokens) := by
  have hacts : ∀ t ∈ tokens.filter acts, acts t = true := fun t => List.of_mem_filter
  rw [programLines, length_code_pred, ← encode_filter tokens]
  generalize tokens.filter acts = acting at hacts
  have hzero : (encode acting).marks[((placed 0 .zero).offset : Int)]? = none := by
    rw [getElem?_marks, sourceMap_encode]
    exact tokenAt_mappingsAt_of_lt (by decide) acting
  have hmarks : ∀ k : Nat, 3 ≤ k →
      (encode acting).marks[(k : Int)]? = tokenAt k (mappingsAt 3 acting) := by
    intro k _
    rw [getElem?_marks, sourceMap_encode]
  have hlayout : disassemble (encode acting).code =
      placed 0 .zero :: layout 3 (acting.flatMap (·.kind.fragment) ++ [.ret]) := by
    rw [code_encode, disassemble_assemble]
    rfl
  rw [listing, hlayout, List.flatMap_cons, listingOf_of_none hzero, listing_tokens hacts hmarks]
  rfl

/-! ## Mappings and comments -/

/-- The mappings that lines show: a comment belongs to the instruction behind it. -/
def shown : List Line → List Mapping
  | [] => []
  | .comment t :: .instruction offset _ :: lines => ⟨offset, t⟩ :: shown lines
  | _ :: lines => shown lines

theorem shown_instructionLines_append (offset : Nat) (ops : List Op) (rest : List Line) :
    shown (instructionLines offset ops ++ rest) = shown rest := by
  induction ops generalizing offset with
  | nil => rfl
  | cons op ops ih => exact ih (offset + op.encoding.length)

theorem shown_tokenLines_append {tokens : List Token} (hacts : ∀ t ∈ tokens, acts t = true)
    (offset : Nat) (rest : List Line) :
    shown (tokenLines offset tokens ++ rest) = mappingsAt offset tokens ++ shown rest := by
  induction tokens generalizing offset with
  | nil => rfl
  | cons t tokens ih =>
      have ht : acts t = true := hacts t (by simp)
      obtain ⟨op, ops, hfragment⟩ := fragment_eq_cons_of_acts ht
      have hrest := ih (fun other hother => hacts other (by simp [hother]))
        (offset + t.kind.code.length)
      rw [mappingsAt_cons_of_acts _ ht, tokenLines_cons, hfragment, instructionLines]
      simp only [List.cons_append, List.append_assoc, shown]
      rw [shown_instructionLines_append, hrest]

theorem shown_programLines (tokens : List Token) :
    shown (programLines tokens) = (encode tokens).sourceMap := by
  have hacts : ∀ t ∈ tokens.filter acts, acts t = true := fun t => List.of_mem_filter
  rw [sourceMap_encode, ← mappingsAt_filter, programLines, List.cons_append, shown,
    shown_tokenLines_append hacts]
  · exact List.append_nil _
  · simp

theorem token?_instructionLines (offset : Nat) (ops : List Op) :
    (instructionLines offset ops).filterMap Line.token? = [] := by
  induction ops generalizing offset with
  | nil => rfl
  | cons op ops ih => exact ih (offset + op.encoding.length)

theorem token?_tokenLines (offset : Nat) (tokens : List Token) :
    (tokenLines offset tokens).filterMap Line.token? = tokens := by
  induction tokens generalizing offset with
  | nil => rfl
  | cons t tokens ih =>
      have htoken : (Line.comment t).token? = some t := rfl
      rw [tokenLines_cons, List.cons_append, List.filterMap_cons_some htoken, List.filterMap_append,
        token?_instructionLines, ih, List.nil_append]

theorem token?_programLines (tokens : List Token) :
    (programLines tokens).filterMap Line.token? = tokens.filter acts := by
  rw [programLines, List.cons_append, List.filterMap_cons_none rfl, List.filterMap_append,
    token?_tokenLines]
  exact List.append_nil _

/-! ## Positions -/

def opsOf (lines : List Line) : List Op :=
  lines.filterMap Line.op?

theorem opsOf_append (a b : List Line) : opsOf (a ++ b) = opsOf a ++ opsOf b :=
  List.filterMap_append

def InPlace (offset : Nat) : List Line → Prop
  | [] => True
  | .comment _ :: lines => InPlace offset lines
  | .instruction place op :: lines =>
      place = offset ∧ InPlace (offset + op.encoding.length) lines

theorem inPlace_append (offset : Nat) (a b : List Line) :
    InPlace offset (a ++ b) ↔
      InPlace offset a ∧ InPlace (offset + (assemble (opsOf a)).length) b := by
  induction a generalizing offset with
  | nil => exact ⟨fun h => ⟨trivial, h⟩, And.right⟩
  | cons l a ih =>
      cases l with
      | comment t => exact ih offset
      | instruction place op =>
          have hops : opsOf (.instruction place op :: a) = op :: opsOf a := rfl
          rw [List.cons_append, InPlace, InPlace, ih, hops, length_assemble_cons, and_assoc,
            Nat.add_assoc]

theorem opsOf_instructionLines (offset : Nat) (ops : List Op) :
    opsOf (instructionLines offset ops) = ops := by
  induction ops generalizing offset with
  | nil => rfl
  | cons op ops ih => exact congrArg (op :: ·) (ih (offset + op.encoding.length))

theorem inPlace_instructionLines (offset : Nat) (ops : List Op) :
    InPlace offset (instructionLines offset ops) := by
  induction ops generalizing offset with
  | nil => trivial
  | cons op ops ih => exact ⟨rfl, ih (offset + op.encoding.length)⟩

theorem opsOf_tokenLines (offset : Nat) (tokens : List Token) :
    opsOf (tokenLines offset tokens) = tokens.flatMap (·.kind.fragment) := by
  induction tokens generalizing offset with
  | nil => rfl
  | cons t tokens ih =>
      have hcomment (lines : List Line) : opsOf (.comment t :: lines) = opsOf lines := rfl
      rw [tokenLines_cons, List.cons_append, hcomment, opsOf_append, opsOf_instructionLines, ih,
        List.flatMap_cons]

theorem inPlace_tokenLines (offset : Nat) (tokens : List Token) :
    InPlace offset (tokenLines offset tokens) := by
  induction tokens generalizing offset with
  | nil => trivial
  | cons t tokens ih =>
      rw [tokenLines_cons, List.cons_append, InPlace, inPlace_append, opsOf_instructionLines]
      exact ⟨inPlace_instructionLines offset t.kind.fragment, ih (offset + t.kind.code.length)⟩

theorem opsOf_programLines (tokens : List Token) :
    opsOf (programLines tokens) = operations (tokens.filter acts) := by
  have hzero (lines : List Line) : opsOf (.instruction 0 .zero :: lines) = .zero :: opsOf lines := rfl
  rw [programLines, List.cons_append, hzero, opsOf_append, opsOf_tokenLines]
  rfl

theorem assemble_opsOf_programLines (tokens : List Token) :
    assemble (opsOf (programLines tokens)) = (encode tokens).code := by
  rw [opsOf_programLines, ← code_encode, encode_filter]

theorem inPlace_programLines (tokens : List Token) : InPlace 0 (programLines tokens) := by
  rw [programLines, List.cons_append, InPlace, inPlace_append, opsOf_tokenLines,
    assemble_fragments, length_code_pred]
  exact ⟨rfl, inPlace_tokenLines 3 _, rfl, trivial⟩

theorem offset_of_programLines {tokens : List Token} {before after : List Line} {offset : Nat}
    {op : Op} (hlines : programLines tokens = before ++ .instruction offset op :: after) :
    (encode tokens).code = assemble (opsOf before) ++ op.encoding ++ assemble (opsOf after) ∧
    offset = (assemble (opsOf before)).length := by
  have hcode := assemble_opsOf_programLines tokens
  have hplace := inPlace_programLines tokens
  have hop (lines : List Line) : opsOf (.instruction offset op :: lines) = op :: opsOf lines := rfl
  rw [hlines, opsOf_append, hop] at hcode
  rw [hlines, inPlace_append, InPlace, Nat.zero_add] at hplace
  refine ⟨?_, hplace.2.1⟩
  rw [← hcode]
  simp [assemble]

/-! ## Recognised instructions -/

theorem oneLine_lineText (l : Line) : OneLine l.text := by
  cases l with
  | comment t => exact oneLine_comment t
  | instruction offset op => exact oneLine_render (placed offset op)

theorem segments_listing (tokens : List Token) :
    segments (encode tokens).listing = (programLines tokens).map Line.text ++ [[]] := by
  have hwritten : written (programLines tokens) =
      ((programLines tokens).map Line.text).flatMap Bytes.line := by
    rw [written, List.flatMap_map]
  rw [listing_eq_written, hwritten, segments_flatMap_line]
  intro text htext
  obtain ⟨l, _, rfl⟩ := List.mem_map.1 htext
  exact oneLine_lineText l

theorem getLast?_text_ne {l : Line} (hl : ∀ t, l.token? = some t → acts t = true) :
    l.text.getLast? ≠ (Bytes.ofAscii "(bad)").getLast? := by
  cases l with
  | comment t =>
      have ht := hl t rfl
      have hname : t.kind.name ≠ [] ∧
          t.kind.name.getLast? ≠ (Bytes.ofAscii "(bad)").getLast? := by
        simp only [acts, Bool.or_eq_true, decide_eq_true_eq] at ht
        rcases ht with ((hkind | hkind) | hkind) | hkind
        all_goals
          rw [hkind]
          decide
      rw [Line.text, Token.comment, List.getLast?_append_of_ne_nil _ hname.1]
      exact hname.2
  | instruction offset op =>
      have htext : (placed offset op).text ≠ [] ∧
          (placed offset op).text.getLast? ≠ (Bytes.ofAscii "(bad)").getLast? := by
        have hinstr : (placed offset op).text = op.instr.text := rfl
        rw [hinstr]
        cases op <;> decide
      rw [Line.text, Decoded.render, List.getLast?_append_of_ne_nil _ htext.1]
      exact htext.2

theorem not_bad_of_mem_segments {tokens : List Token} {text : Bytes}
    (htext : text ∈ segments (encode tokens).listing) : ¬ Bytes.ofAscii "(bad)" <:+ text := by
  rintro ⟨front, rfl⟩
  rw [segments_listing, List.mem_append, List.mem_singleton] at htext
  rcases htext with hline | hnil
  · obtain ⟨l, hl, heq⟩ := List.mem_map.1 hline
    have hacts : ∀ t, l.token? = some t → acts t = true := by
      intro t ht
      have hmem : t ∈ (programLines tokens).filterMap Line.token? :=
        List.mem_filterMap.2 ⟨l, hl, ht⟩
      rw [token?_programLines] at hmem
      exact List.of_mem_filter hmem
    apply getLast?_text_ne hacts
    rw [heq, List.getLast?_append_of_ne_nil _ (by decide)]
  · exact absurd (List.append_eq_nil_iff.1 hnil).2 (by decide)

/-! ## What the lines say -/

def kindWord : Kind → String
  | .ignored => "Ignored"
  | .increment => "Increment"
  | .decrement => "Decrement"
  | .double => "Double"
  | .halve => "Halve"
  | .other code => "Kind(" ++ toString code ++ ")"

def opWords : Op → String
  | .zero => "48 31 C0              xor rax, rax"
  | .inc => "48 83 C0 01           add rax, 1"
  | .dec => "48 83 E8 01           sub rax, 1"
  | .shl1 => "48 D1 E0              shl rax, 1"
  | .cqo => "48 99                 cqo"
  | .movRcx2 => "48 C7 C1 02 00 00 00  mov rcx, 2"
  | .idivRcx => "48 F7 F9              idiv rcx"
  | .ret => "C3                    ret"

/-- How the lines of a listing read: the quoted character of a token, its offset and its kind, or the
offset of an instruction in at least four hexadecimal digits and the instruction. -/
inductive Shows : Line → Bytes → Prop where
  | comment (t : Token) (cs : List Char) (hchar : unescape cs = some (charOf t.char)) :
      Shows (.comment t)
        (utf8 ("; '" ++ String.ofList cs ++ "' @" ++ toString t.offset ++ " " ++ kindWord t.kind))
  | instruction (offset : Nat) (op : Op) :
      Shows (.instruction offset op)
        (utf8 (String.ofList (hexDigits 4 offset) ++ "  " ++ opWords op))

theorem name_eq_utf8 (k : Kind) : k.name = utf8 (kindWord k) := by
  cases k with
  | other code =>
      rw [Kind.name, kindWord, utf8_append, utf8_append, decimal_eq_utf8]
      rfl
  | _ => rfl

theorem render_placed_eq_utf8 (offset : Nat) (op : Op) :
    (placed offset op).render =
      utf8 (String.ofList (hexDigits 4 offset) ++ "  " ++ opWords op) := by
  have hwords : Bytes.padRight 21 (placed offset op).hexDump ++ [Bytes.space] ++
      (placed offset op).text = utf8 (opWords op) := by
    show Bytes.padRight 21 (placed 0 op).hexDump ++ [Bytes.space] ++ (placed 0 op).text = _
    cases op <;> decide +kernel
  have hoffset : Text.hex Text.lowerTen 4 (placed offset op).offset =
      utf8 (String.ofList (hexDigits 4 offset)) := by
    rw [utf8_hexDigits]
    exact hex_eq (by decide) offset
  rw [utf8_append, utf8_append, ← hwords, ← hoffset, Decoded.render]
  simp only [List.append_assoc]
  rfl

theorem shows_text (l : Line) : Shows l l.text := by
  cases l with
  | comment t =>
      obtain ⟨cs, hquoted, hchar⟩ := quoteChar_eq_utf8 t.char
      have htext : t.comment = utf8 ("; '" ++ String.ofList cs ++ "' @" ++ toString t.offset ++
          " " ++ kindWord t.kind) := by
        rw [Token.comment, hquoted, name_eq_utf8, decimal_eq_utf8]
        simp only [utf8_append, List.append_assoc]
        rfl
      rw [Line.text, htext]
      exact .comment t cs hchar
  | instruction offset op =>
      rw [Line.text, render_placed_eq_utf8]
      exact .instruction offset op

/-! ## The whole listing -/

/-- The listing of a program is its instructions in order, each fragment behind the token that it came
from, one line for each and no other line.  Every byte of the code is recognised, each mapping is shown
once, at the instruction that it maps, and every instruction stands in the code where its line says. -/
theorem listing_encode (tokens : List Token) :
    let p := encode tokens
    let lines := programLines tokens
    (∃ texts, segments p.listing = texts ++ [[]] ∧ List.Forall₂ Shows lines texts) ∧
    (∀ text ∈ segments p.listing, ¬ Bytes.ofAscii "(bad)" <:+ text) ∧
    (shown lines = p.sourceMap ∧ lines.filterMap Line.token? = p.sourceMap.map (·.token)) ∧
    ∀ before offset op after, lines = before ++ .instruction offset op :: after →
      p.code = assemble (opsOf before) ++ op.encoding ++ assemble (opsOf after) ∧
      offset = (assemble (opsOf before)).length := by
  intro p lines
  refine ⟨⟨lines.map Line.text, segments_listing tokens, ?_⟩, fun text => not_bad_of_mem_segments,
    ⟨shown_programLines tokens, ?_⟩, fun before offset op after => offset_of_programLines⟩
  · rw [List.forall₂_map_right_iff, List.forall₂_same]
    exact fun l _ => shows_text l
  · rw [token?_programLines, sourceMap_encode, map_token_mappingsAt]

/-- A halving in front of an increment whose character is escaped, with a token without code between
them. -/
theorem listing_encode_halve :
    let halve : Token := ⟨.halve, 47, 0⟩
    let increment : Token := ⟨.increment, 10, 4⟩
    let tokens : List Token := [halve, ⟨.other 7, 10, 1⟩, increment]
    let p := encode tokens
    let lines : List Line :=
      [.instruction 0 .zero, .comment halve, .instruction 3 .cqo, .instruction 5 .movRcx2,
       .instruction 12 .idivRcx, .comment increment, .instruction 15 .inc, .instruction 19 .ret]
    p.listing =
      ["0000  48 31 C0              xor rax, rax",
       "; '/' @0 Halve",
       "0003  48 99                 cqo",
       "0005  48 C7 C1 02 00 00 00  mov rcx, 2",
       "000c  48 F7 F9              idiv rcx",
       "; '\\n' @4 Increment",
       "000f  48 83 C0 01           add rax, 1",
       "0013  C3                    ret"].flatMap (fun text => Bytes.line (Bytes.ofAscii text)) ∧
    (∃ texts, segments p.listing = texts ++ [[]] ∧ List.Forall₂ Shows lines texts) ∧
    p.sourceMap = [⟨3, halve⟩, ⟨15, increment⟩] ∧
    p.code = assemble [.zero, .cqo, .movRcx2] ++ Op.idivRcx.encoding ++ assemble [.inc, .ret] ∧
    12 = (assemble [.zero, .cqo, .movRcx2]).length := by
  intro halve increment tokens p lines
  obtain ⟨htexts, _, ⟨hshown, _⟩, hplace⟩ := listing_encode tokens
  refine ⟨?_, htexts, hshown.symm, hplace (lines.take 4) 12 .idivRcx (lines.drop 5) rfl⟩
  rw [listing_eq_written]
  decide +kernel

end Accumulator.Proofs.Annotations
