import Accumulator.Proofs.Meaning
/-!
# The bytes of a token

The tokens of a source cover it from end to end.  A token reaches up to the next one, and its bytes
are either the UTF-8 form of its character, as the standard library writes it, or one byte at which no
character starts.  Operators are bytes below 0x80, which no longer character contains, so each of them
is found at its own place whatever stands around it.
-/

namespace Accumulator.Proofs.Lexemes

open Meaning Pieces Scanning Text.Utf8 Utf8

/-- Where the `i`-th token ends: at the start of the next one, or at the end of the source. -/
def endOf (source : Bytes) (tokens : List Token) (i : Nat) : Int :=
  (tokens[i + 1]?).elim source.length Token.offset

def slice (source : Bytes) (start stop : Int) : Bytes :=
  (source.take stop.toNat).drop start.toNat

inductive Covers (source : Bytes) (t : Token) (bytes : Bytes) : Prop where
  | character (c : Char) (hbytes : bytes = String.utf8EncodeChar c) (hchar : t.char = c.toNat)
  | stray (b : UInt8) (hbytes : bytes = [b])
      (hnone : ∀ c : Char, ¬ String.utf8EncodeChar c <+: source.drop t.offset.toNat)
      (hchar : t.char = 0xFFFD)

theorem drop_offset_of_mem {source : Bytes} {p : Piece} (hp : p ∈ piecesAt trailing 0 source) :
    ∃ rest : Bytes, source.drop p.offset = p.head :: rest ∧
      p.tail = rest.take (trailing (p.head :: rest)) := by
  obtain ⟨before, rest, hsource, hoffset, htail⟩ := split_of_mem_piecesAt hp
  have hlength : p.offset = before.length := by omega
  refine ⟨rest, ?_, htail⟩
  rw [hsource, hlength, List.drop_left]

theorem covers_of_mem {source : Bytes} {p : Piece} (hp : p ∈ piecesAt trailing 0 source) :
    Covers source (Token.ofPiece p) p.bytes := by
  obtain ⟨rest, hdrop, htail⟩ := drop_offset_of_mem hp
  cases hdecode : decode? (p.head :: rest) with
  | some n =>
      have hscalar : IsScalar n := ((decode?_eq_some_iff _ _).1 hdecode).1
      have hbytes : p.bytes = encode n := by
        rw [Piece.bytes, htail, take_trailing_of_some hdecode]
      obtain ⟨c, rfl⟩ := exists_char hscalar
      apply Covers.character c
      · rw [hbytes, encode_toNat]
      · simp only [Token.ofPiece, hbytes, first_encode hscalar]
  | none =>
      have hbytes : p.bytes = [p.head] := by
        rw [Piece.bytes, htail, take_trailing_of_none hdecode]
      apply Covers.stray p.head hbytes
      · intro c hstart
        have hposition : (Token.ofPiece p).offset.toNat = p.offset := rfl
        rw [hposition, hdrop, ← encode_toNat] at hstart
        exact (decode?_eq_none_iff _).1 hdecode c.toNat (isScalar_toNat c) hstart
      · simp only [Token.ofPiece, hbytes, first, decode?_singleton_of_none hdecode]
        rfl

theorem slice_of_mem {source : Bytes} {p : Piece} (hp : p ∈ piecesAt trailing 0 source) :
    slice source p.offset (p.offset + p.bytes.length : Nat) = p.bytes := by
  obtain ⟨rest, hdrop, htail⟩ := drop_offset_of_mem hp
  have hstart : p.bytes <+: source.drop p.offset := by
    rw [hdrop, Piece.bytes, htail]
    exact List.cons_prefix_cons.2 ⟨rfl, List.take_prefix _ _⟩
  rw [slice, Int.toNat_natCast, Int.toNat_natCast, List.drop_take, Nat.add_sub_cancel_left,
    ← List.prefix_iff_eq_take.1 hstart]

theorem endOf_scan {source : Bytes} {i : Nat} {p : Piece}
    (hp : (piecesAt trailing 0 source)[i]? = some p) :
    endOf source (Token.scan source) i = (p.offset + p.bytes.length : Nat) := by
  have hend := end_of_getElem? hp
  rw [hend, endOf, Token.scan, cut_eq_piecesAt, List.getElem?_map]
  cases (piecesAt trailing 0 source)[i + 1]? with
  | none => simp
  | some next => rfl

/-! ## Operators -/

def operatorTable : List (UInt8 × Kind) :=
  [(Bytes.ofChar '+', .increment), (Bytes.ofChar '-', .decrement), (Bytes.ofChar '*', .double),
   (Bytes.ofChar '/', .halve)]

def operatorAt (place : UInt8 × Nat) : Option Token :=
  (operatorTable.lookup place.1).map fun kind => ⟨kind, place.1.toNat, place.2⟩

theorem ofChar_of_mem_operatorTable :
    ∀ entry ∈ operatorTable,
      entry.1.toNat < 0x80 ∧ entry.2 ≠ .ignored ∧ Kind.ofChar entry.1.toNat = entry.2 := by
  decide

theorem ofChar_of_lookup {b : UInt8} {k : Kind} (hb : operatorTable.lookup b = some k) :
    b.toNat < 0x80 ∧ k ≠ .ignored ∧ Kind.ofChar b.toNat = k := by
  obtain ⟨before, after, htable, _⟩ := List.lookup_eq_some_iff.1 hb
  have hmem : (b, k) ∈ operatorTable := by
    rw [htable]
    simp
  exact ofChar_of_mem_operatorTable (b, k) hmem

theorem ofChar_of_lookup_none {b : UInt8} (hb : operatorTable.lookup b = none) :
    Kind.ofChar b.toNat = .ignored := by
  have hne := List.lookup_eq_none_iff.1 hb
  simp only [operatorTable, List.forall_mem_cons, bne_iff_ne] at hne
  obtain ⟨hplus, hminus, hstar, hslash, _⟩ := hne
  exact ofChar_of_ne hplus hminus hstar hslash

theorem lookup_eq_none_of_le {b : UInt8} (hb : 0x80 ≤ b.toNat) : operatorTable.lookup b = none := by
  cases hkind : operatorTable.lookup b with
  | none => rfl
  | some k =>
      have hlow := (ofChar_of_lookup hkind).1
      omega

/-- Among the bytes of a character there is an operator only if its token acts, and it is that token. -/
theorem filterMap_operatorAt_character {p : Piece} (hp : IsCharacter p) :
    (p.bytes.zipIdx p.offset).filterMap operatorAt =
      [Token.ofPiece p].filter (·.kind ≠ .ignored) := by
  rcases kind_character hp with ⟨b, hbytes, hkind⟩ | ⟨hkind, hbytes⟩
  · rw [hbytes, List.zipIdx_singleton]
    cases hb : operatorTable.lookup b with
    | none =>
        rw [ofChar_of_lookup_none hb] at hkind
        simp [operatorAt, hb, hkind]
    | some k =>
        obtain ⟨hlow, hne, hchar⟩ := ofChar_of_lookup hb
        have htoken : Token.ofPiece p = ⟨k, b.toNat, p.offset⟩ := by
          have hfirst : first [b] = b.toNat := by
            rw [first, decode?_ascii hlow, Option.getD_some]
          simp only [Token.ofPiece, hbytes, hfirst, hchar]
        simp [operatorAt, hb, htoken, hne]
  · have hnone : (p.bytes.zipIdx p.offset).filterMap operatorAt = [] := by
      rw [List.filterMap_eq_nil_iff]
      intro place hplace
      rw [operatorAt, lookup_eq_none_of_le (hbytes _ (List.fst_mem_of_mem_zipIdx hplace)),
        Option.map_none]
    rw [hnone]
    simp [hkind]

theorem filter_kind_scan (source : Bytes) :
    (Token.scan source).filter (·.kind ≠ .ignored) = source.zipIdx.filterMap operatorAt := by
  rw [← flatMap_zipIdx_piecesAt trailing 0 source, Token.scan, cut_eq_piecesAt,
    List.map_eq_flatMap, List.filter_flatMap, List.filterMap_flatMap]
  apply List.flatMap_congr
  intro p hp
  exact (filterMap_operatorAt_character (isCharacter_of_mem hp)).symm

/-! ## The whole source -/

theorem pairwise_offset_scan (source : Bytes) :
    ((Token.scan source).map (·.offset)).Pairwise (· < ·) := by
  rw [← List.isChain_iff_pairwise, Token.scan, cut_eq_piecesAt, List.map_map, List.isChain_map]
  apply (isChain_piecesAt trailing 0 source).imp
  intro p q hnext
  have hpos : 0 < p.bytes.length := Nat.succ_pos _
  simp only [Function.comp_apply, Token.ofPiece, hnext]
  omega

theorem head?_offset_scan {source : Bytes} (hsource : source ≠ []) :
    (Token.scan source).head?.map (·.offset) = some 0 := by
  obtain ⟨b, rest, rfl⟩ := List.exists_cons_of_ne_nil hsource
  rw [Token.scan, cut_eq_piecesAt, piecesAt_cons]
  rfl

/-- The tokens of any bytes cover them without a gap, each with the bytes of its own character or with
one stray byte, and those that act are the operators of the source, each in its place. -/
theorem scan_covers (source : Bytes) :
    (source ≠ [] → (Token.scan source).head?.map (·.offset) = some 0) ∧
    ((Token.scan source).map (·.offset)).Pairwise (· < ·) ∧
    (∀ i, (hi : i < (Token.scan source).length) →
      let t := (Token.scan source)[i]
      Covers source t (slice source t.offset (endOf source (Token.scan source) i))) ∧
    (Token.scan source).filter (·.kind ≠ .ignored) = source.zipIdx.filterMap operatorAt := by
  refine ⟨head?_offset_scan, pairwise_offset_scan source, ?_, filter_kind_scan source⟩
  intro i hi t
  have hget : ((piecesAt trailing 0 source)[i]?).map Token.ofPiece = some t := by
    rw [← List.getElem?_map]
    exact List.getElem?_eq_getElem hi
  obtain ⟨p, hp, hpt⟩ := Option.map_eq_some_iff.1 hget
  have hmem : p ∈ piecesAt trailing 0 source := List.mem_of_getElem? hp
  have hslice : slice source t.offset (endOf source (Token.scan source) i) = p.bytes := by
    rw [← hpt, endOf_scan hp]
    exact slice_of_mem hmem
  rw [hslice, ← hpt]
  exact covers_of_mem hmem

/-- An operator right behind a euro sign that is cut off. -/
theorem scan_covers_cut_off :
    let source : Bytes := [0xE2, 0x82, Bytes.ofChar '+', 0xE2, 0x82, 0xAC]
    source ≠ [] ∧ (Token.scan source).head?.map (·.offset) = some 0 ∧
    1 < (Token.scan source).length ∧
    Covers source ⟨.ignored, 0xFFFD, 1⟩ [0x82] ∧
    Covers source ⟨.ignored, 0x20AC, 3⟩ [0xE2, 0x82, 0xAC] ∧
    (Token.scan source).filter (·.kind ≠ .ignored) = [⟨.increment, 43, 2⟩] := by
  intro source
  obtain ⟨hhead, _, hcovers, hoperators⟩ := scan_covers source
  exact ⟨by decide, hhead (by decide), by decide, hcovers 1 (by decide), hcovers 3 (by decide),
    hoperators⟩

end Accumulator.Proofs.Lexemes
