import Accumulator.Piece
import Mathlib.Data.List.Chain
/-!
# The recursion behind cutting

`Piece.cut` walks over a byte string one byte at a time and keeps its pieces in an accumulator.
Proofs follow the pieces instead: this module gives the equation that takes off one whole piece, and
the induction that goes with it.  Nothing here depends on how the length of a piece is found, so
characters and instructions share it.
-/

namespace Accumulator.Proofs.Pieces

def piecesAt (trailing : Bytes → Nat) (offset : Nat) (bytes : Bytes) : List Piece :=
  Piece.cutFrom trailing offset 0 [] bytes

theorem cut_eq_piecesAt (trailing : Bytes → Nat) (bytes : Bytes) :
    Piece.cut trailing bytes = piecesAt trailing 0 bytes := rfl

theorem cutFrom_found (trailing : Bytes → Nat) (offset skip : Nat) (found : List Piece)
    (bytes : Bytes) :
    Piece.cutFrom trailing offset skip found bytes =
      found.reverse ++ Piece.cutFrom trailing offset skip [] bytes := by
  induction bytes generalizing offset skip found with
  | nil => simp [Piece.cutFrom]
  | cons b rest ih =>
      cases skip with
      | succ skip =>
          simp only [Piece.cutFrom]
          exact ih (offset + 1) skip found
      | zero =>
          simp only [Piece.cutFrom]
          rw [ih (offset + 1) _ (_ :: found), ih (offset + 1) _ [_]]
          simp

theorem cutFrom_skip (trailing : Bytes → Nat) (offset skip : Nat) (bytes : Bytes) :
    Piece.cutFrom trailing offset skip [] bytes =
      piecesAt trailing (offset + skip) (bytes.drop skip) := by
  induction bytes generalizing offset skip with
  | nil => simp [piecesAt, Piece.cutFrom]
  | cons b rest ih =>
      cases skip with
      | zero => rfl
      | succ skip =>
          have hoffset : offset + (skip + 1) = offset + 1 + skip := by omega
          rw [List.drop_succ_cons, hoffset, ← ih (offset + 1) skip]
          rfl

@[simp] theorem piecesAt_nil (trailing : Bytes → Nat) (offset : Nat) :
    piecesAt trailing offset [] = [] := rfl

theorem piecesAt_cons (trailing : Bytes → Nat) (offset : Nat) (b : UInt8) (rest : Bytes) :
    piecesAt trailing offset (b :: rest) =
      ⟨offset, b, rest.take (trailing (b :: rest))⟩ ::
        piecesAt trailing (offset + 1 + trailing (b :: rest))
          (rest.drop (trailing (b :: rest))) := by
  rw [← cutFrom_skip]
  unfold piecesAt
  simp only [Piece.cutFrom]
  rw [cutFrom_found]
  rfl

theorem piecesAt_append (trailing : Bytes → Nat) (offset : Nat) (b : UInt8) (tail rest : Bytes)
    (htrailing : trailing (b :: tail ++ rest) = tail.length) :
    piecesAt trailing offset (b :: tail ++ rest) =
      ⟨offset, b, tail⟩ :: piecesAt trailing (offset + (tail.length + 1)) rest := by
  have hcons := piecesAt_cons trailing offset b (tail ++ rest)
  rw [← List.cons_append, htrailing, List.take_left, List.drop_left] at hcons
  rw [hcons]
  congr 2
  omega

/-- Induction that takes off a whole piece at a time. -/
theorem pieces_induction (trailing : Bytes → Nat) {motive : Bytes → Prop}
    (nil : motive [])
    (cons : ∀ b rest, motive (rest.drop (trailing (b :: rest))) → motive (b :: rest))
    (bytes : Bytes) : motive bytes := by
  induction hlength : bytes.length using Nat.strongRecOn generalizing bytes with
  | ind n ih =>
      cases bytes with
      | nil => exact nil
      | cons b rest =>
          apply cons
          apply ih (rest.drop (trailing (b :: rest))).length
          · rw [← hlength, List.length_drop, List.length_cons]
            omega
          · rfl

theorem flatMap_bytes_piecesAt (trailing : Bytes → Nat) (offset : Nat) (bytes : Bytes) :
    (piecesAt trailing offset bytes).flatMap Piece.bytes = bytes := by
  induction bytes using pieces_induction trailing generalizing offset with
  | nil => rfl
  | cons b rest ih =>
      rw [piecesAt_cons, List.flatMap_cons, ih]
      simp only [Piece.bytes, List.cons_append, List.take_append_drop]

theorem piecesAt_eq_nil {trailing : Bytes → Nat} {offset : Nat} {bytes : Bytes}
    (hnil : piecesAt trailing offset bytes = []) : bytes = [] := by
  rw [← flatMap_bytes_piecesAt trailing offset bytes, hnil, List.flatMap_nil]

theorem cons_take_length_pred {b : UInt8} {rest word : Bytes} (hne : word ≠ [])
    (hstart : word <+: b :: rest) : b :: rest.take (word.length - 1) = word := by
  cases word with
  | nil => exact absurd rfl hne
  | cons b' tail =>
      obtain ⟨rfl, htail⟩ := List.cons_prefix_cons.1 hstart
      rw [List.length_cons, Nat.add_sub_cancel, ← List.prefix_iff_eq_take.1 htail]

/-! ## Where the pieces stand -/

def moved (n : Nat) (p : Piece) : Piece :=
  { p with offset := p.offset + n }

theorem piecesAt_add (trailing : Bytes → Nat) (offset n : Nat) (bytes : Bytes) :
    piecesAt trailing (offset + n) bytes = (piecesAt trailing offset bytes).map (moved n) := by
  induction bytes using pieces_induction trailing generalizing offset with
  | nil => rfl
  | cons b rest ih =>
      have hoffset : offset + n + 1 + trailing (b :: rest) =
          offset + 1 + trailing (b :: rest) + n := by omega
      rw [piecesAt_cons, piecesAt_cons, hoffset, ih, List.map_cons]
      rfl

theorem offset_of_mem_head? {trailing : Bytes → Nat} {offset : Nat} {bytes : Bytes} {p : Piece}
    (hp : p ∈ (piecesAt trailing offset bytes).head?) : p.offset = offset ∧ bytes ≠ [] := by
  cases bytes with
  | nil => simp at hp
  | cons b rest =>
      rw [piecesAt_cons, List.head?_cons, Option.mem_some_iff] at hp
      subst hp
      exact ⟨rfl, List.cons_ne_nil b rest⟩

theorem isChain_piecesAt (trailing : Bytes → Nat) (offset : Nat) (bytes : Bytes) :
    (piecesAt trailing offset bytes).IsChain fun p q => q.offset = p.offset + p.bytes.length := by
  induction bytes using pieces_induction trailing generalizing offset with
  | nil => exact .nil
  | cons b rest ih =>
      rw [piecesAt_cons]
      refine List.isChain_cons.2 ⟨?_, ih _⟩
      intro q hq
      -- Only the last piece can be shorter than its bytes call for, and `q` comes behind this one.
      obtain ⟨hoffset, hne⟩ := offset_of_mem_head? hq
      have hlt : trailing (b :: rest) < rest.length := by
        simpa using hne
      simp only [Piece.bytes, List.length_cons, List.length_take, hoffset]
      omega

theorem split_of_mem_piecesAt {trailing : Bytes → Nat} {offset : Nat} {bytes : Bytes} {p : Piece}
    (hp : p ∈ piecesAt trailing offset bytes) :
    ∃ before rest : Bytes, bytes = before ++ p.head :: rest ∧ p.offset = offset + before.length ∧
      p.tail = rest.take (trailing (p.head :: rest)) := by
  induction bytes using pieces_induction trailing generalizing offset with
  | nil => simp at hp
  | cons b rest ih =>
      rw [piecesAt_cons, List.mem_cons] at hp
      rcases hp with rfl | hp
      · exact ⟨[], rest, rfl, rfl, rfl⟩
      · obtain ⟨before, after, hbytes, hoffset, htail⟩ := ih hp
        refine ⟨b :: rest.take (trailing (b :: rest)) ++ before, after, ?_, ?_, htail⟩
        · rw [List.append_assoc, ← hbytes, List.cons_append, List.take_append_drop]
        · have hlength := congrArg List.length hbytes
          simp only [List.length_drop, List.length_append, List.length_cons] at hlength
          simp only [List.length_append, List.length_cons, List.length_take, hoffset]
          omega

theorem end_of_mem_getLast? {trailing : Bytes → Nat} {offset : Nat} {bytes : Bytes} {p : Piece}
    (hp : p ∈ (piecesAt trailing offset bytes).getLast?) :
    p.offset + p.bytes.length = offset + bytes.length := by
  induction bytes using pieces_induction trailing generalizing offset with
  | nil => simp at hp
  | cons b rest ih =>
      rw [piecesAt_cons, List.getLast?_cons, Option.mem_some_iff] at hp
      by_cases hlt : trailing (b :: rest) < rest.length
      · have hne : piecesAt trailing (offset + 1 + trailing (b :: rest))
            (rest.drop (trailing (b :: rest))) ≠ [] := by
          intro hnil
          have hle := List.drop_eq_nil_iff.1 (piecesAt_eq_nil hnil)
          omega
        rw [List.getLast?_eq_some_getLast hne, Option.getD_some] at hp
        have hend := ih (hp ▸ List.getLast?_eq_some_getLast hne)
        rw [hend, List.length_drop, List.length_cons]
        omega
      · rw [List.drop_eq_nil_of_le (by omega)] at hp
        subst hp
        simp only [piecesAt_nil, List.getLast?_nil, Option.getD_none, Piece.bytes, List.length_cons,
          List.length_take]
        omega

theorem end_of_getElem? {trailing : Bytes → Nat} {offset i : Nat} {bytes : Bytes} {p : Piece}
    (hp : (piecesAt trailing offset bytes)[i]? = some p) :
    p.offset + p.bytes.length =
      ((piecesAt trailing offset bytes)[i + 1]?).elim (offset + bytes.length) Piece.offset := by
  obtain ⟨hi, hget⟩ := List.getElem?_eq_some_iff.1 hp
  by_cases hnext : i + 1 < (piecesAt trailing offset bytes).length
  · have hchain := List.isChain_iff_getElem.1 (isChain_piecesAt trailing offset bytes) i hnext
    rw [List.getElem?_eq_getElem hnext, Option.elim_some, hchain, hget]
  · have hlast : p ∈ (piecesAt trailing offset bytes).getLast? := by
      have hlength : (piecesAt trailing offset bytes).length - 1 = i := by omega
      rw [List.getLast?_eq_getElem?, hlength, hp]
      rfl
    rw [List.getElem?_eq_none (by omega), Option.elim_none, end_of_mem_getLast? hlast]

theorem flatMap_zipIdx_piecesAt (trailing : Bytes → Nat) (offset : Nat) (bytes : Bytes) :
    (piecesAt trailing offset bytes).flatMap (fun p => p.bytes.zipIdx p.offset) =
      bytes.zipIdx offset := by
  induction bytes using pieces_induction trailing generalizing offset with
  | nil => rfl
  | cons b rest ih =>
      have hsplit : b :: rest =
          b :: rest.take (trailing (b :: rest)) ++ rest.drop (trailing (b :: rest)) := by
        rw [List.cons_append, List.take_append_drop]
      rw [piecesAt_cons, List.flatMap_cons, ih]
      conv => rhs; rw [hsplit, List.zipIdx_append]
      by_cases hle : trailing (b :: rest) ≤ rest.length
      · have hoffset : offset + 1 + trailing (b :: rest) =
            offset + (b :: rest.take (trailing (b :: rest))).length := by
          rw [List.length_cons, List.length_take_of_le hle]
          omega
        rw [hoffset]
        rfl
      · rw [List.drop_eq_nil_of_le (by omega)]
        rfl

end Accumulator.Proofs.Pieces
