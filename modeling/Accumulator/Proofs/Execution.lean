import Accumulator.Executor.Execute
/-!
# What one execution can do

The ways through an execution, each with everything that is seen of it and what it leaves behind.
Properties of runs are read off this list and never open the executor again.
-/

namespace Accumulator.Proofs.Execution

open Executor

/-- Both guards let the code pass: it is not empty, it ends in `ret`, and there is something to call
it with. -/
def Passes (host : Host) (code : Bytes) : Prop :=
  code.getLast? = some returnByte ∧ host.native = true

instance (host : Host) (code : Bytes) : Decidable (Passes host code) :=
  inferInstanceAs (Decidable (_ ∧ _))

def nextService (e : Executor) : Service :=
  e.host.serve e.requests

def served (e : Executor) (counters : Counters) : Executor :=
  { e with requests := e.requests + 1, counters }

def releaseLog (service : Service) (region : Region) : List Log.Entry :=
  match service.release region with
  | some f => [releaseEntry region.size f]
  | none => []

inductive Outcome (e : Executor) (code : Bytes) : Call × Executor → Prop where
  | rejected (f : Failure) (hpasses : ¬ Passes e.host code) :
      Outcome e code (⟨.failed f, [], []⟩, e)
  | refused (f : Failure) (hpasses : Passes e.host code)
      (hacquire : (nextService e).acquire code.length = .error f) :
      Outcome e code
        (⟨.failed f, [.acquire code.length none], []⟩,
          served e { e.counters with failures := e.counters.failures + 1 })
  | short (region : Region) (hpasses : Passes e.host code)
      (hacquire : (nextService e).acquire code.length = .ok region)
      (hsize : region.size < code.length) :
      Outcome e code
        (⟨.failed (shortRegion code.length),
            [.acquire code.length (some region), .release region],
            releaseLog (nextService e) region⟩,
          served e
            { e.counters with
              acquired := e.counters.acquired + 1
              released := e.counters.released + 1
              failures := e.counters.failures + 1 })
  | unsealed (region : Region) (f : Failure) (hpasses : Passes e.host code)
      (hacquire : (nextService e).acquire code.length = .ok region)
      (hsize : code.length ≤ region.size)
      (hseal : (nextService e).sealing (region.write code) = .error f) :
      Outcome e code
        (⟨.failed f,
            [.acquire code.length (some region), .write region code,
              .sealing (region.write code) none, .release (region.write code)],
            releaseLog (nextService e) (region.write code)⟩,
          served e
            { e.counters with
              acquired := e.counters.acquired + 1
              released := e.counters.released + 1
              failures := e.counters.failures + 1 })
  | returned (region : Region) (protection : Protection) (value : Int64)
      (hpasses : Passes e.host code)
      (hacquire : (nextService e).acquire code.length = .ok region)
      (hsize : code.length ≤ region.size)
      (hseal : (nextService e).sealing (region.write code) = .ok protection)
      (hinvoke : (nextService e).invoke ((region.write code).protect protection) =
        .returned value) :
      Outcome e code
        (⟨.value value,
            [.acquire code.length (some region), .write region code,
              .sealing (region.write code) (some protection),
              .invoke ((region.write code).protect protection),
              .release ((region.write code).protect protection)],
            executedEntry code.length value ::
              releaseLog (nextService e) ((region.write code).protect protection)⟩,
          served e
            { e.counters with
              acquired := e.counters.acquired + 1
              released := e.counters.released + 1
              invoked := e.counters.invoked + 1 })
  | aborted (region : Region) (protection : Protection) (message : Bytes)
      (hpasses : Passes e.host code)
      (hacquire : (nextService e).acquire code.length = .ok region)
      (hsize : code.length ≤ region.size)
      (hseal : (nextService e).sealing (region.write code) = .ok protection)
      (hinvoke : (nextService e).invoke ((region.write code).protect protection) =
        .aborted message) :
      Outcome e code
        (⟨.aborted message,
            [.acquire code.length (some region), .write region code,
              .sealing (region.write code) (some protection),
              .invoke ((region.write code).protect protection),
              .release ((region.write code).protect protection)],
            releaseLog (nextService e) ((region.write code).protect protection)⟩,
          served e
            { e.counters with
              acquired := e.counters.acquired + 1
              released := e.counters.released + 1 })

theorem outcome_execute (e : Executor) (code : Bytes) : Outcome e code (e.execute code) := by
  unfold execute
  by_cases hlast : code.getLast? = some returnByte
  · rw [if_neg (not_not_intro hlast)]
    cases hnative : e.host.native with
    | false => exact .rejected _ (by simp [Passes, hnative])
    | true =>
        have hpasses : Passes e.host code := ⟨hlast, hnative⟩
        rw [if_neg (by simp)]
        cases hacquire : (e.host.serve e.requests).acquire code.length with
        | error f =>
            simp only [hacquire]
            exact .refused f hpasses hacquire
        | ok region =>
            simp only [hacquire]
            by_cases hsize : region.size < code.length
            · simp only [useRegion, if_pos hsize]
              exact .short region hpasses hacquire hsize
            · simp only [useRegion, if_neg hsize]
              have hsize' : code.length ≤ region.size := Nat.le_of_not_lt hsize
              cases hseal : (e.host.serve e.requests).sealing (region.write code) with
              | error f => exact .unsealed region f hpasses hacquire hsize' hseal
              | ok protection =>
                  cases hinvoke : (e.host.serve e.requests).invoke
                      ((region.write code).protect protection) with
                  | returned value =>
                      simp only [callSealed, hinvoke]
                      exact .returned region protection value hpasses hacquire hsize' hseal hinvoke
                  | aborted message =>
                      simp only [callSealed, hinvoke]
                      exact .aborted region protection message hpasses hacquire hsize' hseal hinvoke
  · rw [if_pos hlast]
    exact .rejected _ (fun hpasses => hlast hpasses.1)

theorem verdict_of_not_passes {e : Executor} {code : Bytes} (hpasses : ¬ Passes e.host code) :
    (e.execute code).1.verdict = .failed .invalidCode ∨
      (e.execute code).1.verdict = .failed .unsupported := by
  unfold execute
  by_cases hlast : code.getLast? = some returnByte
  · have hforeign : e.host.native = false := by
      rw [← Bool.not_eq_true]
      intro hnative
      exact hpasses ⟨hlast, hnative⟩
    rw [if_neg (not_not_intro hlast), if_pos hforeign]
    exact .inr rfl
  · rw [if_pos hlast]
    exact .inl rfl

theorem bytes_write {region : Region} {code : Bytes} (hsize : code.length ≤ region.size) :
    (region.write code).bytes = code ++ region.bytes.drop code.length := by
  simp only [Region.write, List.take_of_length_le hsize]

/-! ## Runs -/

def callsOf (e : Executor) : List Bytes → List Call
  | [] => []
  | code :: codes => (e.execute code).1 :: callsOf (e.execute code).2 codes

def afterAll (e : Executor) : List Bytes → Executor
  | [] => e
  | code :: codes => afterAll (e.execute code).2 codes

def history (e : Executor) (codes : List Bytes) : List Event :=
  (callsOf e codes).flatMap Call.events

theorem Outcome.host_eq {e : Executor} {code : Bytes} {out : Call × Executor}
    (hout : Outcome e code out) : out.2.host = e.host := by
  cases hout <;> rfl

@[simp] theorem host_execute (e : Executor) (code : Bytes) : (e.execute code).2.host = e.host :=
  (outcome_execute e code).host_eq

end Accumulator.Proofs.Execution
