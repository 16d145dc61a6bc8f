import Accumulator.Text.Utf8
/-!
# Reading UTF-8 back

A scalar value is read back from its UTF-8 form whatever follows it, so that a prefix of a byte string
settles its first character.  The four length classes are opened once, in `encode_cases`.
-/

namespace Accumulator.Proofs.Utf8

open Text.Utf8

theorem toNat_toUInt8 {n : Nat} (h : n < 256) : n.toUInt8.toNat = n :=
  UInt8.toNat_ofNat_of_lt h

theorem toNat_tailByte (c : Nat) : (tailByte c).toNat = 0x80 + c % 64 := by
  unfold tailByte
  exact toNat_toUInt8 (by omega)

/-- The form of a code point by its length class, with the value of the first byte. -/
theorem encode_cases {c : Nat} (hc : c < 0x110000) :
    ∃ lead : UInt8,
      (c < 0x80 ∧ lead.toNat = c ∧ encode c = [lead]) ∨
      (0x80 ≤ c ∧ c < 0x800 ∧ lead.toNat = 0xC0 + c / 64 ∧ encode c = [lead, tailByte c]) ∨
      (0x800 ≤ c ∧ c < 0x10000 ∧ lead.toNat = 0xE0 + c / 4096 ∧
        encode c = [lead, tailByte (c / 64), tailByte c]) ∨
      (0x10000 ≤ c ∧ lead.toNat = 0xF0 + c / 262144 ∧
        encode c = [lead, tailByte (c / 4096), tailByte (c / 64), tailByte c]) := by
  unfold encode
  by_cases h1 : c < 0x80
  · exact ⟨_, .inl ⟨h1, toNat_toUInt8 (by omega), if_pos h1⟩⟩
  · rw [if_neg h1]
    by_cases h2 : c < 0x800
    · exact ⟨_, .inr (.inl ⟨by omega, h2, toNat_toUInt8 (by omega), if_pos h2⟩)⟩
    · rw [if_neg h2]
      by_cases h3 : c < 0x10000
      · exact ⟨_, .inr (.inr (.inl ⟨by omega, h3, toNat_toUInt8 (by omega), if_pos h3⟩))⟩
      · exact ⟨_, .inr (.inr (.inr ⟨by omega, toNat_toUInt8 (by omega), if_neg h3⟩))⟩

theorem isScalar_lt {c : Nat} (hc : IsScalar c) : c < 0x110000 := by
  unfold IsScalar at hc
  omega

theorem candidate_encode_append {c : Nat} (hc : c < 0x110000) (rest : Bytes) :
    candidate (encode c ++ rest) = c := by
  obtain ⟨lead, ⟨h1, hlead, he⟩ | ⟨h1, h2, hlead, he⟩ | ⟨h1, h2, hlead, he⟩ | ⟨h1, hlead, he⟩⟩ :=
    encode_cases hc
  · simp only [he, candidate, List.cons_append, List.headD_cons, hlead]
    exact if_pos (by omega)
  · simp only [he, candidate, sixBits, List.cons_append, List.headD_cons, hlead,
      List.getD_cons_succ, List.getD_cons_zero, toNat_tailByte]
    rw [if_neg (by omega), if_pos (by omega)]
    omega
  · simp only [he, candidate, sixBits, List.cons_append, List.headD_cons, hlead,
      List.getD_cons_succ, List.getD_cons_zero, toNat_tailByte]
    rw [if_neg (by omega), if_neg (by omega), if_pos (by omega)]
    omega
  · simp only [he, candidate, sixBits, List.cons_append, List.headD_cons, hlead,
      List.getD_cons_succ, List.getD_cons_zero, toNat_tailByte]
    rw [if_neg (by omega), if_neg (by omega), if_neg (by omega)]
    omega

theorem decode?_eq_some_iff (bytes : Bytes) (c : Nat) :
    decode? bytes = some c ↔ IsScalar c ∧ encode c <+: bytes := by
  simp only [decode?]
  constructor
  · intro h
    split at h
    · next hdecoded =>
        cases h
        exact ⟨hdecoded.1, List.isPrefixOf_iff_prefix.1 hdecoded.2⟩
    · cases h
  · rintro ⟨hscalar, rest, rfl⟩
    rw [candidate_encode_append (isScalar_lt hscalar)]
    exact if_pos ⟨hscalar, List.isPrefixOf_iff_prefix.2 (List.prefix_append _ _)⟩

theorem decode?_eq_none_iff (bytes : Bytes) :
    decode? bytes = none ↔ ∀ c : Nat, IsScalar c → ¬ encode c <+: bytes := by
  rw [Option.eq_none_iff_forall_ne_some]
  constructor
  · intro hnone c hscalar hstart
    exact hnone c ((decode?_eq_some_iff _ _).2 ⟨hscalar, hstart⟩)
  · intro hno c hsome
    obtain ⟨hscalar, hstart⟩ := (decode?_eq_some_iff _ _).1 hsome
    exact hno c hscalar hstart

theorem decode?_encode {c : Nat} (hc : IsScalar c) : decode? (encode c) = some c :=
  (decode?_eq_some_iff _ _).2 ⟨hc, List.prefix_rfl⟩

theorem first_encode {c : Nat} (hc : IsScalar c) : first (encode c) = c := by
  rw [first, decode?_encode hc, Option.getD_some]

theorem decode?_ascii {b : UInt8} (hb : b.toNat < 0x80) (rest : Bytes) :
    decode? (b :: rest) = some b.toNat := by
  apply (decode?_eq_some_iff _ _).2
  refine ⟨Or.inl (by omega), rest, ?_⟩
  rw [encode, if_pos hb]
  simp

theorem le_of_mem_encode {c : Nat} (hlow : 0x80 ≤ c) (hc : c < 0x110000) {b : UInt8}
    (hb : b ∈ encode c) : 0x80 ≤ b.toNat := by
  have htail : ∀ n, 0x80 ≤ (tailByte n).toNat := by
    intro n
    rw [toNat_tailByte]
    omega
  obtain ⟨lead, ⟨h1, hlead, he⟩ | ⟨h1, h2, hlead, he⟩ | ⟨h1, h2, hlead, he⟩ | ⟨h1, hlead, he⟩⟩ :=
    encode_cases hc
  · omega
  · simp only [he, List.mem_cons, List.not_mem_nil, or_false] at hb
    rcases hb with rfl | rfl
    · omega
    · exact htail _
  · simp only [he, List.mem_cons, List.not_mem_nil, or_false] at hb
    rcases hb with rfl | rfl | rfl
    · omega
    · exact htail _
    · exact htail _
  · simp only [he, List.mem_cons, List.not_mem_nil, or_false] at hb
    rcases hb with rfl | rfl | rfl | rfl
    · omega
    · exact htail _
    · exact htail _
    · exact htail _

/-! ## Characters as the library has them -/

theorem isScalar_toNat (c : Char) : IsScalar c.toNat :=
  c.valid

theorem exists_char {n : Nat} (hn : IsScalar n) : ∃ c : Char, c.toNat = n :=
  ⟨Char.ofNatAux n hn, rfl⟩

/-- The UTF-8 form of a character is the one that texts of the standard library are stored in. -/
theorem encode_toNat (c : Char) : encode c.toNat = String.utf8EncodeChar c := by
  have hval : c.val.toNat = c.toNat := rfl
  have htail : ∀ n, tailByte n = UInt8.ofNat (n % 64 + 128) := by
    intro n
    rw [tailByte, Nat.add_comm]
  have hlt := isScalar_lt (isScalar_toNat c)
  simp only [encode, String.utf8EncodeChar, hval]
  by_cases h1 : c.toNat < 0x80
  · rw [if_pos h1, if_pos (show c.toNat ≤ 127 by omega)]
  · rw [if_neg h1, if_neg (show ¬ c.toNat ≤ 127 by omega)]
    by_cases h2 : c.toNat < 0x800
    · have hlead : 0xC0 + c.toNat / 64 = c.toNat / 64 % 32 + 192 := by omega
      rw [if_pos h2, if_pos (show c.toNat ≤ 2047 by omega), hlead, htail]
    · rw [if_neg h2, if_neg (show ¬ c.toNat ≤ 2047 by omega)]
      by_cases h3 : c.toNat < 0x10000
      · have hlead : 0xE0 + c.toNat / 4096 = c.toNat / 4096 % 16 + 224 := by omega
        rw [if_pos h3, if_pos (by omega), hlead, htail, htail]
      · have hlead : 0xF0 + c.toNat / 262144 = c.toNat / 262144 % 8 + 240 := by omega
        rw [if_neg h3, if_neg (by omega), hlead, htail, htail, htail]
end Accumulator.Proofs.Utf8
