import Accumulator.Proofs.Entry
import Mathlib.Algebra.Ring.Int.Defs
/-!
# Division of a pair of registers

`idiv` divides a number of 128 bits, of which `rdx` holds the upper half and `rax` the lower.  The
machine only works with pairs that are one sign-extended word.  Hand-made code may divide twice in a
row or change `rax` behind a `cqo`, so any remainder can stand in `rdx` when a division is reached; the
check that the machine makes is shown to be a condition on the number itself, and the quotient and the
remainder to be those of that number.
-/

namespace Accumulator.Proofs.Division

open Compilation Disassembly Entry Machine

/-! ## The dividend -/

/-- The number in `rdx` and `rax`, with the sign of `rdx`. -/
def dividend (r : Registers) : Int :=
  r.rdx.toInt * 2 ^ 64 + r.rax.toUInt64.toNat

def FitsWord (n : Int) : Prop :=
  -2 ^ 63 ≤ n ∧ n < 2 ^ 63

theorem toNat_toUInt64 (v : Int64) :
    (v.toUInt64.toNat : Int) = if v.toInt < 0 then v.toInt + 2 ^ 64 else v.toInt := by
  have hsigned := BitVec.toInt_eq_toNat_cond v.toBitVec
  have hunsigned : v.toUInt64.toNat = v.toBitVec.toNat := by
    rw [← UInt64.toNat_toBitVec, Int64.toBitVec_toUInt64]
  have hlt := v.toBitVec.isLt
  rw [Int64.toInt_toBitVec] at hsigned
  rw [hunsigned]
  by_cases hsmall : 2 * v.toBitVec.toNat < 2 ^ 64
  · rw [if_pos hsmall] at hsigned
    rw [if_neg (by omega), hsigned]
  · rw [if_neg hsmall] at hsigned
    rw [if_pos (by omega), hsigned]
    omega

theorem toInt_signOfRax (r : Registers) :
    r.signOfRax.toInt = if r.rax.toInt < 0 then -1 else 0 := by
  have hneg : r.rax < 0 ↔ r.rax.toInt < 0 := Int64.lt_iff_toInt_lt
  by_cases hrax : r.rax.toInt < 0
  · rw [Registers.signOfRax, if_pos (hneg.2 hrax), if_pos hrax]
    rfl
  · rw [Registers.signOfRax, if_neg (mt hneg.1 hrax), if_neg hrax]
    rfl

/-- The pair is one sign-extended word exactly when the number in it fits a word. -/
theorem rdx_eq_signOfRax_iff (r : Registers) :
    r.rdx = r.signOfRax ↔ FitsWord (dividend r) := by
  have hlower := r.rax.le_toInt
  have hupper := r.rax.toInt_lt
  rw [← Int64.toInt_inj, toInt_signOfRax, FitsWord, dividend, toNat_toUInt64]
  by_cases hrax : r.rax.toInt < 0
  · rw [if_pos hrax, if_pos hrax]
    omega
  · rw [if_neg hrax, if_neg hrax]
    omega

theorem dividend_of_fitsWord {r : Registers} (hfits : FitsWord (dividend r)) :
    dividend r = r.rax.toInt := by
  have hrdx := congrArg Int64.toInt ((rdx_eq_signOfRax_iff r).2 hfits)
  rw [dividend, hrdx, toInt_signOfRax, toNat_toUInt64]
  by_cases hrax : r.rax.toInt < 0
  · rw [if_pos hrax, if_pos hrax]
    omega
  · rw [if_neg hrax, if_neg hrax]
    omega

/-! ## Quotient and remainder -/

/-- `r'` holds the quotient and the remainder of the number in `r` by the divisor in `r`.  The equation
is one of integers, and the quotient in `rax` is the whole of it: nothing has been cut off. -/
structure Divides (r r' : Registers) : Prop where
  equation : dividend r = r.rcx.toInt * r'.rax.toInt + r'.rdx.toInt
  remainder_lt : (r'.rdx.toInt.natAbs : Int) < r.rcx.toInt
  remainder_sign : r'.rdx.toInt = 0 ∨ r'.rdx.toInt.sign = (dividend r).sign
  quotient : r'.rax.toInt = (dividend r).tdiv r.rcx.toInt
  divisor_kept : r'.rcx = r.rcx

def divided (r : Registers) : Registers :=
  { r with rax := r.rax / r.rcx, rdx := r.rax % r.rcx }

theorem divides_divided {r : Registers} (hrcx : 0 < r.rcx.toInt)
    (hfits : FitsWord (dividend r)) : Divides r (divided r) := by
  -- Only a divisor of -1 has a quotient that a word may not hold.
  have hne : r.rcx ≠ -1 := by
    intro heq
    rw [heq] at hrcx
    exact absurd hrcx (by decide)
  have hrax : (divided r).rax.toInt = r.rax.toInt.tdiv r.rcx.toInt :=
    Int64.toInt_div_of_ne_right r.rax r.rcx hne
  have hrdx : (divided r).rdx.toInt = r.rax.toInt.tmod r.rcx.toInt :=
    Int64.toInt_mod r.rax r.rcx
  have hdividend := dividend_of_fitsWord hfits
  constructor
  · rw [hdividend, hrax, hrdx, Int.mul_tdiv_add_tmod]
  · have hpos : 0 < r.rcx.toInt.natAbs := by omega
    have hmod := Nat.mod_lt r.rax.toInt.natAbs hpos
    rw [hrdx, Int.natAbs_tmod]
    omega
  · rw [hrdx, hdividend, Int.sign_tmod]
    by_cases hdvd : r.rcx.toInt ∣ r.rax.toInt
    · exact .inl (Int.tmod_eq_zero_of_dvd hdvd)
    · exact .inr (if_neg hdvd)
  · rw [hdividend, hrax]
  · rfl

theorem divide_cases (r : Registers) (offset : Nat) :
    (r.rcx = 0 ∧ r.divide offset = .stop (.divideByZero offset)) ∨
    (r.rcx ≠ 0 ∧ ¬ FitsWord (dividend r) ∧ r.divide offset = .stop (.wideDividend offset)) ∨
    (r.rcx ≠ 0 ∧ FitsWord (dividend r) ∧ r.divide offset = .next (divided r)) := by
  unfold Registers.divide
  by_cases hrcx : r.rcx = 0
  · rw [if_pos hrcx]
    exact .inl ⟨hrcx, rfl⟩
  · rw [if_neg hrcx]
    by_cases hfits : FitsWord (dividend r)
    · rw [if_neg (not_not_intro ((rdx_eq_signOfRax_iff r).2 hfits))]
      exact .inr (.inr ⟨hrcx, hfits, rfl⟩)
    · rw [if_pos (mt (rdx_eq_signOfRax_iff r).1 hfits)]
      exact .inr (.inl ⟨hrcx, hfits, rfl⟩)

/-! ## Divisions that are reached -/

theorem rcx_of_next {r r' : Registers} {d : Decoded} (hstep : r.step d = .next r') :
    r'.rcx = r.rcx ∨ r'.rcx = 2 := by
  unfold Registers.step at hstep
  cases hop : d.op with
  | none =>
      rw [hop] at hstep
      cases hstep
  | some op =>
      rw [hop] at hstep
      cases op with
      | movRcx2 =>
          cases hstep
          exact .inr rfl
      | idivRcx =>
          obtain ⟨_, heq⟩ | ⟨_, _, heq⟩ | ⟨_, _, heq⟩ := divide_cases r d.offset
          · cases heq.symm.trans hstep
          · cases heq.symm.trans hstep
          · cases heq.symm.trans hstep
            exact .inl rfl
      | ret => cases hstep
      | _ =>
          cases hstep
          exact .inl rfl

theorem rcx_of_reaches {r : Registers} {code rest : List Decoded}
    (hreaches : Reaches {} code r rest) : r.rcx = 0 ∨ r.rcx = 2 := by
  refine hreaches.preserves (P := fun r => r.rcx = 0 ∨ r.rcx = 2) ?_ (.inl rfl)
  intro r r' d hstep hr
  rcases rcx_of_next hstep with hkept | htwo
  · rw [hkept]
    exact hr
  · exact .inr htwo

/-- Whatever code is emulated, each `idiv` that is reached divides the number in the pair of registers
as the processor does, or refuses to when there is no divisor or the number does not fit a word. -/
theorem idiv_reached {code : Bytes} {r : Registers} {d : Decoded} {rest : List Decoded}
    (hreaches : Reaches {} (disassemble code) r (d :: rest)) (hop : d.op = some .idivRcx) :
    (r.rcx = 0 ∨ r.rcx = 2) ∧
    ((∃ fault, r.step d = .stop fault ∧ emulate code = .error fault) ↔
      r.rcx = 0 ∨ ¬ FitsWord (dividend r)) ∧
    (r.step d = .stop (.divideByZero d.offset) ↔ r.rcx = 0) ∧
    (r.step d = .stop (.wideDividend d.offset) ↔ r.rcx ≠ 0 ∧ ¬ FitsWord (dividend r)) ∧
    (r.rcx ≠ 0 → FitsWord (dividend r) →
      ∃ r', r.step d = .next r' ∧ emulate code = r'.run rest ∧ Divides r r') := by
  have hrcx := rcx_of_reaches hreaches
  have hstep : r.step d = r.divide d.offset := by
    rw [Registers.step, hop]
  have hrun : emulate code = r.run (d :: rest) := hreaches.run_eq
  rw [Registers.run] at hrun
  refine ⟨hrcx, ?_⟩
  obtain ⟨hzero, heq⟩ | ⟨hne, hwide, heq⟩ | ⟨hne, hfits, heq⟩ := divide_cases r d.offset
  · rw [hstep, heq] at hrun
    rw [hstep, heq]
    simp [hzero, hrun]
  · rw [hstep, heq] at hrun
    rw [hstep, heq]
    simp [hne, hwide, hrun]
  · rw [hstep, heq] at hrun
    have hpos : 0 < r.rcx.toInt := by
      rw [hrcx.resolve_left hne]
      decide
    rw [hstep, heq]
    have hdivides := divides_divided hpos hfits
    simp [hne, hfits, hrun, hdivides]

/-- Two divisions of -3 without a `cqo` between them: the second one finds the remainder -1 of the
first in `rdx`, above a quotient of -1, and this pair is the number -1. -/
theorem idiv_reached_twice :
    let ops : List Op := [.dec, .dec, .dec, .cqo, .movRcx2, .idivRcx, .idivRcx, .ret]
    let r : Registers := ⟨-1, 2, -1⟩
    let rest := [placed 27 .ret]
    Reaches {} (disassemble (assemble ops)) r (placed 24 .idivRcx :: rest) ∧
    (placed 24 .idivRcx).op = some .idivRcx ∧
    ∃ r', r.step (placed 24 .idivRcx) = .next r' ∧ emulate (assemble ops) = r'.run rest ∧
      Divides r r' := by
  intro ops r rest
  have hreaches : Reaches {} (disassemble (assemble ops)) r (placed 24 .idivRcx :: rest) := by
    rw [disassemble_assemble]
    exact .step rfl <| .step rfl <| .step rfl <| .step rfl <| .step rfl <| .step rfl <| .refl _ _
  obtain ⟨_, _, _, _, hproceeds⟩ := idiv_reached hreaches rfl
  have hfits : FitsWord (dividend r) := (rdx_eq_signOfRax_iff r).1 rfl
  exact ⟨hreaches, rfl, hproceeds (by decide) hfits⟩

end Accumulator.Proofs.Division
