import Accumulator.Proofs.Execution
/-!
# What the counters count

The counters of an executor are compared with what is seen from outside: the events of a run and the
ways in which its calls end.  `Accounts` states this for any stretch of a run, so that stretches add
up.
-/

namespace Accumulator.Proofs.Counting

open Execution Executor

def isGrant : Event → Bool
  | .acquire _ (some _) => true
  | _ => false

def isRelease : Event → Bool
  | .release _ => true
  | _ => false

def isReturn (call : Call) : Bool :=
  match call.verdict with
  | .value _ => true
  | _ => false

def isFailure (call : Call) : Bool :=
  match call.verdict with
  | .failed _ => true
  | _ => false

def isAbort (call : Call) : Bool :=
  match call.verdict with
  | .aborted _ => true
  | _ => false

/-- A call that failed although both guards had let its code pass. -/
def isLateFailure (host : Host) (p : Bytes × Call) : Bool :=
  decide (Passes host p.1) && isFailure p.2

structure Accounts (host : Host) (codes : List Bytes) (calls : List Call)
    (before after : Counters) : Prop where
  acquired : after.acquired = before.acquired + (calls.flatMap Call.events).countP isGrant
  released : after.released = before.released + (calls.flatMap Call.events).countP isRelease
  balanced : (calls.flatMap Call.events).countP isGrant =
    (calls.flatMap Call.events).countP isRelease
  invoked : after.invoked = before.invoked + calls.countP isReturn
  failures : after.failures = before.failures + (codes.zip calls).countP (isLateFailure host)
  passed : codes.countP (fun code => decide (Passes host code)) =
    calls.countP isReturn + (codes.zip calls).countP (isLateFailure host) + calls.countP isAbort

theorem accounts_nil (host : Host) (counters : Counters) :
    Accounts host [] [] counters counters := by
  constructor <;> rfl

theorem accounts_of_outcome {e : Executor} {code : Bytes} {out : Call × Executor}
    (hout : Outcome e code out) : Accounts e.host [code] [out.1] e.counters out.2.counters := by
  cases hout with
  | rejected f hpasses =>
      constructor <;> simp [isReturn, isAbort, isLateFailure, hpasses]
  | refused _ hpasses | short _ hpasses | unsealed _ _ hpasses | returned _ _ _ hpasses
  | aborted _ _ _ hpasses =>
      constructor <;>
        simp [served, List.countP_cons, isGrant, isRelease, isReturn, isFailure, isAbort,
          isLateFailure, hpasses]

theorem Accounts.cons {host : Host} {code : Bytes} {call : Call} {codes : List Bytes}
    {calls : List Call} {before middle after : Counters}
    (hfirst : Accounts host [code] [call] before middle)
    (hrest : Accounts host codes calls middle after) :
    Accounts host (code :: codes) (call :: calls) before after := by
  obtain ⟨a₁, r₁, b₁, i₁, f₁, p₁⟩ := hfirst
  obtain ⟨a₂, r₂, b₂, i₂, f₂, p₂⟩ := hrest
  simp only [List.flatMap_cons, List.flatMap_nil, List.append_nil, List.countP_cons,
    List.countP_nil, List.zip_cons_cons, List.zip_nil_left] at a₁ r₁ b₁ i₁ f₁ p₁
  constructor
  · rw [List.flatMap_cons, List.countP_append]
    omega
  · rw [List.flatMap_cons, List.countP_append]
    omega
  · rw [List.flatMap_cons, List.countP_append, List.countP_append]
    omega
  · rw [List.countP_cons]
    omega
  · rw [List.zip_cons_cons, List.countP_cons]
    omega
  · rw [List.zip_cons_cons, List.countP_cons, List.countP_cons, List.countP_cons,
      List.countP_cons]
    omega

theorem accounts_run (e : Executor) (codes : List Bytes) :
    Accounts e.host codes (callsOf e codes) e.counters (afterAll e codes).counters := by
  induction codes generalizing e with
  | nil => exact accounts_nil e.host e.counters
  | cons code codes ih =>
      have hrest := ih (e.execute code).2
      rw [host_execute] at hrest
      exact (accounts_of_outcome (outcome_execute e code)).cons hrest

/-- After any sequence of executions on a new executor, whichever of them failed or aborted, the
counters are what was seen: regions granted and given back, calls that returned a value, and calls
that failed behind the guards; with the aborted ones these are all calls that passed the guards. -/
theorem counters_conserved (host : Host) (codes : List Bytes) :
    let e : Executor := { host }
    let counters := (afterAll e codes).counters
    let calls := callsOf e codes
    counters.acquired = counters.released ∧
    counters.acquired = (history e codes).countP isGrant ∧
    counters.released = (history e codes).countP isRelease ∧
    counters.invoked = calls.countP isReturn ∧
    counters.failures = (codes.zip calls).countP (isLateFailure host) ∧
    codes.countP (fun code => decide (Passes host code)) =
      counters.invoked + counters.failures + calls.countP isAbort := by
  intro e counters calls
  obtain ⟨hacquired, hreleased, hbalanced, hinvoked, hfailures, hpassed⟩ := accounts_run e codes
  have hstart : e.counters = ⟨0, 0, 0, 0⟩ := rfl
  rw [hstart, Nat.zero_add] at hacquired hreleased hinvoked hfailures
  refine ⟨?_, hacquired, hreleased, hinvoked, hfailures, ?_⟩
  · rw [hacquired, hreleased, hbalanced]
  · rw [hinvoked, hfailures, hpassed]

end Accumulator.Proofs.Counting
