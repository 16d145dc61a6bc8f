import Accumulator.Proofs.Pieces
import Accumulator.Proofs.Utf8
import Accumulator.Token
/-!
# Characters of a source

Each piece of a scanned source is either the UTF-8 form of a scalar value or one stray byte outside
ASCII.  In both cases a byte below 0x80 is a character of its own, which is why programs may be read
byte by byte.
-/

namespace Accumulator.Proofs.Scanning

open Pieces Text.Utf8 Utf8

inductive IsCharacter (p : Piece) : Prop where
  | scalar (c : Nat) (hscalar : IsScalar c) (hbytes : p.bytes = encode c)
  | stray (htail : p.tail = []) (hhead : 0x80 ≤ p.head.toNat) (hnone : decode? p.bytes = none)

theorem take_trailing_of_some {b : UInt8} {rest : Bytes} {c : Nat}
    (hdecode : decode? (b :: rest) = some c) :
    b :: rest.take (trailing (b :: rest)) = encode c := by
  obtain ⟨hscalar, hstart⟩ := (decode?_eq_some_iff _ _).1 hdecode
  have htrailing : trailing (b :: rest) = (encode c).length - 1 := by
    simp only [trailing, hdecode]
  have hne : encode c ≠ [] := by
    obtain ⟨lead, h⟩ := encode_cases (isScalar_lt hscalar)
    rintro hnil
    simp [hnil] at h
  rw [htrailing, cons_take_length_pred hne hstart]

theorem take_trailing_of_none {b : UInt8} {rest : Bytes} (hdecode : decode? (b :: rest) = none) :
    rest.take (trailing (b :: rest)) = [] := by
  simp only [trailing, hdecode, List.take_zero]

theorem decode?_singleton_of_none {b : UInt8} {rest : Bytes}
    (hdecode : decode? (b :: rest) = none) : decode? [b] = none := by
  cases hb : decode? [b] with
  | none => rfl
  | some c =>
      obtain ⟨hscalar, hprefix⟩ := (decode?_eq_some_iff _ _).1 hb
      have hlonger : decode? (b :: rest) = some c :=
        (decode?_eq_some_iff _ _).2 ⟨hscalar, hprefix.trans (List.prefix_append [b] rest)⟩
      rw [hdecode] at hlonger
      cases hlonger

theorem isCharacter_of_mem {offset : Nat} {source : Bytes} {p : Piece}
    (hp : p ∈ piecesAt trailing offset source) : IsCharacter p := by
  obtain ⟨_, rest, _, _, htail⟩ := split_of_mem_piecesAt hp
  cases hdecode : decode? (p.head :: rest) with
  | some c =>
      apply IsCharacter.scalar c
      · exact ((decode?_eq_some_iff _ _).1 hdecode).1
      · rw [Piece.bytes, htail, take_trailing_of_some hdecode]
  | none =>
      rw [take_trailing_of_none hdecode] at htail
      apply IsCharacter.stray htail
      · apply Nat.le_of_not_lt
        intro hlow
        rw [decode?_ascii hlow] at hdecode
        cases hdecode
      · rw [Piece.bytes, htail, decode?_singleton_of_none hdecode]

end Accumulator.Proofs.Scanning
