import Accumulator.Proofs.Compilation
/-!
# Registers at entry

The emulated machine starts with registers that hold zero, while code that is called natively finds
there whatever its caller left.  `Reaches` follows a run step by step from any registers; a run that
returns has reached a `ret` without a fault on its way, and compiled code does so with one and the
same value in the accumulator from all registers.
-/

namespace Accumulator.Proofs.Entry

open Compilation Machine Meaning

/-- From `r` at the start of `code` the machine gets, step by step and without a fault, to `r'` at
the start of `rest`. -/
inductive Reaches : Registers → List Decoded → Registers → List Decoded → Prop where
  | refl (r : Registers) (code : List Decoded) : Reaches r code r code
  | step {r r₁ r' : Registers} {d : Decoded} {code rest : List Decoded}
      (hstep : r.step d = .next r₁) (hreaches : Reaches r₁ code r' rest) :
      Reaches r (d :: code) r' rest

theorem Reaches.run_eq {r r' : Registers} {code rest : List Decoded}
    (hreaches : Reaches r code r' rest) : r.run code = r'.run rest := by
  induction hreaches with
  | refl r code => rfl
  | step hstep _ ih => rw [run_cons_of_next hstep, ih]

theorem Reaches.preserves {P : Registers → Prop}
    (hstep : ∀ {r r' : Registers} {d : Decoded}, r.step d = .next r' → P r → P r')
    {r r' : Registers} {code rest : List Decoded} (hreaches : Reaches r code r' rest)
    (hr : P r) : P r' := by
  induction hreaches with
  | refl r code => exact hr
  | step hnext _ ih => exact ih (hstep hnext hr)

theorem divide_ne_done (r : Registers) (offset : Nat) (value : Int64) :
    r.divide offset ≠ .done value := by
  unfold Registers.divide
  by_cases hrcx : r.rcx = 0
  · simp [hrcx]
  · by_cases hrdx : r.rdx = r.signOfRax <;> simp [hrcx, hrdx]

theorem step_eq_done {r : Registers} {d : Decoded} {value : Int64}
    (hstep : r.step d = .done value) : d.op = some .ret ∧ r.rax = value := by
  unfold Registers.step at hstep
  cases hop : d.op with
  | none =>
      rw [hop] at hstep
      cases hstep
  | some op =>
      rw [hop] at hstep
      cases op with
      | ret =>
          cases hstep
          exact ⟨rfl, rfl⟩
      | idivRcx => exact absurd hstep (divide_ne_done r d.offset value)
      | _ => cases hstep

theorem exists_reaches_ret {r : Registers} {code : List Decoded} {value : Int64}
    (hrun : r.run code = .ok value) :
    ∃ (r' : Registers) (d : Decoded) (rest : List Decoded),
      Reaches r code r' (d :: rest) ∧ d.op = some .ret ∧ r'.rax = value := by
  induction code generalizing r with
  | nil => cases hrun
  | cons d code ih =>
      rw [Registers.run] at hrun
      cases hstep : r.step d with
      | next r₁ =>
          rw [hstep] at hrun
          obtain ⟨r', d', rest, hreaches, hret, hrax⟩ := ih hrun
          exact ⟨r', d', rest, .step hstep hreaches, hret, hrax⟩
      | done value' =>
          rw [hstep] at hrun
          cases hrun
          exact ⟨r, d, code, .refl r (d :: code), step_eq_done hstep⟩
      | stop fault =>
          rw [hstep] at hrun
          cases hrun

/-- From whatever registers compiled code is entered, it reaches a `ret` without a fault, and what
it returns there is what it returns from registers that hold zero. -/
theorem run_encode_ignores_entry (tokens : List Token) (r : Registers) :
    let code := (Program.encode tokens).code
    ∃ (r' : Registers) (d : Decoded) (rest : List Decoded),
      Reaches r (disassemble code) r' (d :: rest) ∧ d.op = some .ret ∧
      r.run (disassemble code) = .ok r'.rax ∧ emulate code = .ok r'.rax := by
  intro code
  have hany : ∀ entry : Registers, entry.run (disassemble code) = .ok (actAll tokens 0) := by
    intro entry
    simpa using run_encode_append tokens entry []
  obtain ⟨r', d, rest, hreaches, hret, hrax⟩ := exists_reaches_ret (hany r)
  refine ⟨r', d, rest, hreaches, hret, ?_, ?_⟩
  · rw [hany r, hrax]
  · rw [hrax]
    exact hany {}

end Accumulator.Proofs.Entry
