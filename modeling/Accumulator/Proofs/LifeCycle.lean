import Accumulator.Proofs.Execution
import Mathlib.Data.List.Forall2
/-!
# The life of a region

Every execution that acquires a region gives it back, on each of its ways.  The five possible traces
of one execution are listed in `Trace`, by what the host answered; `Phase` watches the events of
a whole run from outside and lets only one region be out at a time.
-/

namespace Accumulator.Proofs.LifeCycle

open Execution Executor

/-- A region that holds `code` at its start and, behind it, what `region` holds there. -/
def Holds (written region : Region) (code : Bytes) : Prop :=
  written.size = region.size ∧
    written.bytes.take code.length = code ∧
    written.bytes.drop code.length = region.bytes.drop code.length

instance (written region : Region) (code : Bytes) : Decidable (Holds written region code) :=
  inferInstanceAs (Decidable (_ ∧ _ ∧ _))

theorem holds_write {region : Region} {code : Bytes} (hsize : code.length ≤ region.size) :
    Holds (region.write code) region code := by
  refine ⟨Region.size_write region code, ?_, ?_⟩
  · rw [bytes_write hsize, List.take_left]
  · rw [bytes_write hsize, List.drop_left]

def verdictOf : Invocation → Verdict
  | .returned value => .value value
  | .aborted message => .aborted message

/-- The traces of one execution, each with its ending and the answers of the host that lead to it. -/
inductive Trace (host : Host) (code : Bytes) : Verdict → List Event → Prop where
  | idle (f : Failure) (hpasses : ¬ Passes host code) : Trace host code (.failed f) []
  | refused (k : Nat) (f : Failure) (hpasses : Passes host code)
      (hacquire : (host.serve k).acquire code.length = .error f) :
      Trace host code (.failed f) [.acquire code.length none]
  | short (k : Nat) (region : Region) (f : Failure) (hpasses : Passes host code)
      (hacquire : (host.serve k).acquire code.length = .ok region)
      (hsize : region.size < code.length) :
      Trace host code (.failed f)
        [.acquire code.length (some region), .release region]
  | unsealed (k : Nat) (region written : Region) (f : Failure) (hpasses : Passes host code)
      (hacquire : (host.serve k).acquire code.length = .ok region)
      (hsize : code.length ≤ region.size) (hholds : Holds written region code)
      (hseal : (host.serve k).sealing written = .error f) :
      Trace host code (.failed f)
        [.acquire code.length (some region), .write region code, .sealing written none,
          .release written]
  | invoked (k : Nat) (region written : Region) (protection : Protection)
      (hpasses : Passes host code)
      (hacquire : (host.serve k).acquire code.length = .ok region)
      (hsize : code.length ≤ region.size) (hholds : Holds written region code)
      (hseal : (host.serve k).sealing written = .ok protection) :
      Trace host code (verdictOf ((host.serve k).invoke (written.protect protection)))
        [.acquire code.length (some region), .write region code,
          .sealing written (some protection), .invoke (written.protect protection),
          .release (written.protect protection)]

theorem trace_of_outcome {e : Executor} {code : Bytes} {out : Call × Executor}
    (hout : Outcome e code out) : Trace e.host code out.1.verdict out.1.events := by
  cases hout with
  | rejected f hpasses => exact .idle f hpasses
  | refused f hpasses hacquire => exact .refused e.requests f hpasses hacquire
  | short region hpasses hacquire hsize =>
      exact .short e.requests region _ hpasses hacquire hsize
  | unsealed region f hpasses hacquire hsize hseal =>
      exact .unsealed e.requests region _ f hpasses hacquire hsize (holds_write hsize) hseal
  | returned region protection value hpasses hacquire hsize hseal hinvoke =>
      have htrace := Trace.invoked e.requests region _ protection hpasses hacquire hsize
        (holds_write hsize) hseal
      rw [show (e.host.serve e.requests).invoke _ = _ from hinvoke] at htrace
      exact htrace
  | aborted region protection message hpasses hacquire hsize hseal hinvoke =>
      have htrace := Trace.invoked e.requests region _ protection hpasses hacquire hsize
        (holds_write hsize) hseal
      rw [show (e.host.serve e.requests).invoke _ = _ from hinvoke] at htrace
      exact htrace

theorem forall₂_trace (e : Executor) (codes : List Bytes) :
    List.Forall₂ (fun code call => Trace e.host code call.verdict call.events) codes
      (callsOf e codes) := by
  induction codes generalizing e with
  | nil => exact .nil
  | cons code codes ih =>
      have hrest := ih (e.execute code).2
      rw [host_execute] at hrest
      exact .cons (trace_of_outcome (outcome_execute e code)) hrest

theorem exists_trace_of_mem {e : Executor} {codes : List Bytes} {call : Call}
    (hcall : call ∈ callsOf e codes) :
    ∃ code, Trace e.host code call.verdict call.events := by
  induction codes generalizing e with
  | nil => cases hcall
  | cons code codes ih =>
      rcases List.mem_cons.1 hcall with rfl | hcall
      · exact ⟨code, trace_of_outcome (outcome_execute e code)⟩
      · rw [← host_execute e code]
        exact ih hcall

/-! ## Watching a run -/

inductive Phase where
  | free
  | lent (size : Nat) (region : Region)
  | filled (region : Region) (code : Bytes)
  | ready (region : Region)
  | spent (region : Region)
  deriving DecidableEq, Repr

/-- The phase after an event, if the event is in order: nothing is acquired before the last region
has come back, only a region that holds all of the code is sealed, only a sealed one is invoked, and
that once. -/
def Phase.next : Phase → Event → Option Phase
  | free, .acquire _ none => some free
  | free, .acquire size (some region) => some (lent size region)
  | lent size region, .write r code =>
      if r = region ∧ code.length = size ∧ size ≤ region.size then some (filled region code)
      else none
  | lent _ region, .release r => if r = region then some free else none
  | filled region code, .sealing r none => if Holds r region code then some (spent r) else none
  | filled region code, .sealing r (some protection) =>
      if Holds r region code then some (ready (r.protect protection)) else none
  | ready region, .invoke r => if r = region then some (spent region) else none
  | spent region, .release r => if r = region then some free else none
  | _, _ => none

def Phase.watch (phase : Phase) (events : List Event) : Option Phase :=
  events.foldlM Phase.next phase

theorem Trace.watched {host : Host} {code : Bytes} {verdict : Verdict} {events : List Event}
    (htrace : Trace host code verdict events) : Phase.free.watch events = some .free := by
  cases htrace with
  | idle => rfl
  | refused => rfl
  | short => simp [Phase.watch, Phase.next]
  | unsealed k region written f _ _ hsize hholds =>
      simp [Phase.watch, Phase.next, hsize, hholds]
  | invoked k region written protection _ _ hsize hholds =>
      simp [Phase.watch, Phase.next, hsize, hholds]

theorem watch_append (phase : Phase) (first second : List Event) :
    phase.watch (first ++ second) = (phase.watch first).bind fun phase => phase.watch second :=
  List.foldlM_append

theorem watch_history (e : Executor) (codes : List Bytes) :
    Phase.free.watch (history e codes) = some .free := by
  induction codes generalizing e with
  | nil => rfl
  | cons code codes ih =>
      have hfirst := (trace_of_outcome (outcome_execute e code)).watched
      rw [history, callsOf, List.flatMap_cons, watch_append, hfirst]
      exact ih (e.execute code).2

/-! ## Calls -/

def isInvoke : Event → Bool
  | .invoke _ => true
  | _ => false

theorem Trace.countP_invoke_le {host : Host} {code : Bytes} {verdict : Verdict}
    {events : List Event} (htrace : Trace host code verdict events) :
    events.countP isInvoke ≤ 1 := by
  cases htrace <;> simp [List.countP_cons, isInvoke]

theorem Trace.released_of_aborted {host : Host} {code message : Bytes} {events : List Event}
    (htrace : Trace host code (.aborted message) events) :
    ∃ region, [.invoke region, .release region] <:+ events := by
  generalize hverdict : Verdict.aborted message = verdict at htrace
  cases htrace with
  | idle => cases hverdict
  | refused => cases hverdict
  | short => cases hverdict
  | unsealed => cases hverdict
  | invoked k region written protection =>
      exact ⟨written.protect protection, List.suffix_append [_, _, _] _⟩

/-- The trace of every execution of a run is one of the five.  Hence code is called at most once per
execution, a region comes back even when the code in it aborts, and over the whole run every region
that is acquired is released once before the next one is acquired. -/
theorem region_life_cycle (e : Executor) (codes : List Bytes) :
    List.Forall₂ (fun code call => Trace e.host code call.verdict call.events) codes
      (callsOf e codes) ∧
    (∀ call ∈ callsOf e codes, call.events.countP isInvoke ≤ 1) ∧
    (∀ call ∈ callsOf e codes, ∀ message, call.verdict = .aborted message →
      ∃ region, [.invoke region, .release region] <:+ call.events) ∧
    Phase.free.watch (history e codes) = some .free := by
  refine ⟨forall₂_trace e codes, ?_, ?_, watch_history e codes⟩
  · intro call hcall
    obtain ⟨code, htrace⟩ := exists_trace_of_mem hcall
    exact htrace.countP_invoke_le
  · intro call hcall message hverdict
    obtain ⟨code, htrace⟩ := exists_trace_of_mem hcall
    rw [hverdict] at htrace
    exact htrace.released_of_aborted

end Accumulator.Proofs.LifeCycle
