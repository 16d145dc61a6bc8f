import Accumulator.Program
/-!
# Programs of concatenated token lists

Code and source map are built side by side, and the offsets in the map are those of the whole code.
Both come apart where the list of tokens does: a token adds its own bytes and at most one mapping, and
what stands in front of it only moves that mapping.  Tokens without code leave no trace.
-/

namespace Accumulator.Proofs.SourceMap

open Machine Program

/-! ## Mappings from an offset on -/

def mappingsAt (offset : Nat) (tokens : List Token) : List Mapping :=
  mappingsFrom offset [] tokens

def bodyOf (tokens : List Token) : Bytes :=
  tokens.flatMap (·.kind.code)

def acts (t : Token) : Bool :=
  t.kind = .increment || t.kind = .decrement || t.kind = .double || t.kind = .halve

theorem code_of_not_acts {t : Token} (ht : acts t = false) : t.kind.code = [] := by
  unfold acts at ht
  cases hkind : t.kind with
  | ignored => rfl
  | other code => rfl
  | _ => simp [hkind] at ht

theorem length_code_of_acts {t : Token} (ht : acts t = true) : 0 < t.kind.code.length := by
  unfold acts at ht
  cases hkind : t.kind with
  | ignored => simp [hkind] at ht
  | other code => simp [hkind] at ht
  | _ => decide

theorem mappingsFrom_found (offset : Nat) (found : List Mapping) (tokens : List Token) :
    mappingsFrom offset found tokens = found.reverse ++ mappingsAt offset tokens := by
  induction tokens generalizing offset found with
  | nil => simp [mappingsAt, mappingsFrom]
  | cons t tokens ih =>
      unfold mappingsAt mappingsFrom
      rw [ih]
      conv => rhs; rw [ih]
      by_cases hsize : t.kind.code.length = 0
      · simp [hsize]
      · simp [hsize]

@[simp] theorem mappingsAt_nil (offset : Nat) : mappingsAt offset [] = [] := rfl

theorem mappingsAt_cons_of_acts (offset : Nat) {t : Token} (ht : acts t = true)
    (tokens : List Token) :
    mappingsAt offset (t :: tokens) =
      ⟨offset, t⟩ :: mappingsAt (offset + t.kind.code.length) tokens := by
  have hsize := length_code_of_acts ht
  conv => lhs; unfold mappingsAt mappingsFrom
  rw [mappingsFrom_found, if_neg (by omega)]
  rfl

theorem mappingsAt_cons_of_not_acts (offset : Nat) {t : Token} (ht : acts t = false)
    (tokens : List Token) : mappingsAt offset (t :: tokens) = mappingsAt offset tokens := by
  have hsize : t.kind.code.length = 0 := by
    rw [code_of_not_acts ht, List.length_nil]
  conv => lhs; unfold mappingsAt mappingsFrom
  rw [mappingsFrom_found, if_pos hsize, hsize]
  rfl

theorem mappingsAt_append (offset : Nat) (first second : List Token) :
    mappingsAt offset (first ++ second) =
      mappingsAt offset first ++ mappingsAt (offset + (bodyOf first).length) second := by
  induction first generalizing offset with
  | nil => rfl
  | cons t first ih =>
      have hbody : (bodyOf (t :: first)).length = t.kind.code.length + (bodyOf first).length := by
        simp [bodyOf]
      rw [List.cons_append, hbody, ← Nat.add_assoc]
      cases ht : acts t with
      | true =>
          rw [mappingsAt_cons_of_acts _ ht, mappingsAt_cons_of_acts _ ht, ih, List.cons_append]
      | false =>
          rw [mappingsAt_cons_of_not_acts _ ht, mappingsAt_cons_of_not_acts _ ht, ih,
            code_of_not_acts ht]
          rfl

def advanced (n : Int) (m : Mapping) : Mapping :=
  { m with codeOffset := m.codeOffset + n }

theorem mappingsAt_add (offset n : Nat) (tokens : List Token) :
    mappingsAt (offset + n) tokens = (mappingsAt offset tokens).map (advanced n) := by
  induction tokens generalizing offset with
  | nil => rfl
  | cons t tokens ih =>
      cases ht : acts t with
      | true =>
          have hoffset : offset + n + t.kind.code.length = offset + t.kind.code.length + n := by
            omega
          rw [mappingsAt_cons_of_acts _ ht, mappingsAt_cons_of_acts _ ht, hoffset, ih, List.map_cons]
          rfl
      | false => rw [mappingsAt_cons_of_not_acts _ ht, mappingsAt_cons_of_not_acts _ ht, ih]

theorem map_token_mappingsAt (offset : Nat) (tokens : List Token) :
    (mappingsAt offset tokens).map (·.token) = tokens.filter acts := by
  induction tokens generalizing offset with
  | nil => rfl
  | cons t tokens ih =>
      cases ht : acts t with
      | true =>
          rw [mappingsAt_cons_of_acts _ ht, List.map_cons, ih, List.filter_cons_of_pos ht]
      | false =>
          rw [mappingsAt_cons_of_not_acts _ ht, ih, List.filter_cons_of_neg (by simp [ht])]

/-! ## Tokens without code -/

theorem bodyOf_filter (tokens : List Token) :
    bodyOf (tokens.filter acts) = bodyOf tokens := by
  induction tokens with
  | nil => rfl
  | cons t tokens ih =>
      have hbody : bodyOf (t :: tokens) = t.kind.code ++ bodyOf tokens := rfl
      cases ht : acts t with
      | true =>
          rw [List.filter_cons_of_pos ht, hbody, ← ih]
          rfl
      | false =>
          rw [List.filter_cons_of_neg (by simp [ht]), ih, hbody, code_of_not_acts ht]
          rfl

theorem mappingsAt_filter (offset : Nat) (tokens : List Token) :
    mappingsAt offset (tokens.filter acts) = mappingsAt offset tokens := by
  induction tokens generalizing offset with
  | nil => rfl
  | cons t tokens ih =>
      cases ht : acts t with
      | true =>
          rw [List.filter_cons_of_pos ht, mappingsAt_cons_of_acts _ ht,
            mappingsAt_cons_of_acts _ ht, ih]
      | false =>
          rw [List.filter_cons_of_neg (by simp [ht]), mappingsAt_cons_of_not_acts _ ht, ih]

theorem encode_filter (tokens : List Token) :
    encode (tokens.filter acts) = encode tokens := by
  have hbody := bodyOf_filter tokens
  have hmap := mappingsAt_filter Op.zero.encoding.length tokens
  unfold bodyOf at hbody
  unfold mappingsAt at hmap
  rw [encode, encode, hbody, hmap]

/-! ## Whole programs -/

theorem code_encode_eq (tokens : List Token) :
    (encode tokens).code = Op.zero.encoding ++ bodyOf tokens ++ Op.ret.encoding := rfl

theorem sourceMap_encode (tokens : List Token) :
    (encode tokens).sourceMap = mappingsAt 3 tokens := rfl

theorem dropLast_code (tokens : List Token) :
    (encode tokens).code.dropLast = Op.zero.encoding ++ bodyOf tokens :=
  List.dropLast_concat

theorem drop_code (tokens : List Token) :
    (encode tokens).code.drop 3 = bodyOf tokens ++ Op.ret.encoding := rfl

theorem length_code_encode (tokens : List Token) :
    (encode tokens).code.length = (bodyOf tokens).length + 4 := by
  have hzero : Op.zero.encoding.length = 3 := rfl
  have hret : Op.ret.encoding.length = 1 := rfl
  rw [code_encode_eq, List.length_append, List.length_append, hzero, hret]
  omega

/-- The program of two token lists in a row is made of their two programs: the frame of clearing and
returning is shared, and the offsets of the second move by the bytes of the first.  Tokens of any
other kind than the four that act may be left out, one of them or all. -/
theorem encode_composes (first second : List Token) :
    (encode (first ++ second)).code =
      (encode first).code.dropLast ++ (encode second).code.drop 3 ∧
    (encode (first ++ second)).sourceMap =
      (encode first).sourceMap ++
        (encode second).sourceMap.map (advanced ((encode first).code.length - 4)) ∧
    (∀ t : Token, acts t = false → encode (first ++ t :: second) = encode (first ++ second)) ∧
    encode (first.filter acts) = encode first := by
  refine ⟨?_, ?_, ?_, encode_filter first⟩
  · rw [dropLast_code, drop_code, code_encode_eq, bodyOf, List.flatMap_append]
    simp only [List.append_assoc, bodyOf]
  · have hlength : ((encode first).code.length : Int) - 4 = (bodyOf first).length := by
      rw [length_code_encode]
      omega
    rw [hlength, sourceMap_encode, sourceMap_encode, sourceMap_encode, mappingsAt_append,
      mappingsAt_add]
  · intro t ht
    rw [← encode_filter (first ++ t :: second), ← encode_filter (first ++ second),
      List.filter_append, List.filter_append, List.filter_cons_of_neg (by simp [ht])]

/-- A token of a kind that has no name, between a halving and an increment. -/
theorem encode_composes_unnamed :
    let halve : Token := ⟨.halve, 47, 0⟩
    let unnamed : Token := ⟨.other 42, 43, 1⟩
    let increment : Token := ⟨.increment, 43, 2⟩
    acts unnamed = false ∧
    encode [halve, unnamed, increment] = encode [halve, increment] ∧
    (encode [halve, increment]).sourceMap = [⟨3, halve⟩, ⟨15, increment⟩] := by
  intro halve unnamed increment
  obtain ⟨_, hmap, hdelete, _⟩ := encode_composes [halve] [increment]
  exact ⟨by decide, hdelete unnamed (by decide), hmap⟩

end Accumulator.Proofs.SourceMap
