import Accumulator.Executor.Script
import Accumulator.Proofs.Execution
/-!
# Failing releases

A region that cannot be given back is reported in the log and nowhere else.  Every run is held
against the run on the same host with releases that never fail: both take the same way through each
call, and two runs that differ only in their releases are held against the same one.
-/

namespace Accumulator.Proofs.ReleaseFailures

open Execution Executor

def quietService (s : Service) : Service :=
  { s with release := fun _ => none }

def quietHost (host : Host) : Host :=
  { host with serve := fun k => quietService (host.serve k) }

def quiet (e : Executor) : Executor :=
  { e with host := quietHost e.host }

/-- The log of a call is `log`, and one warning more if the release of its region failed.  The warning
gives the size of the region before the release. -/
def LogsBeyond (s : Service) (call : Call) (log : List Log.Entry) : Prop :=
  (∀ region f, .release region ∈ call.events → s.release region = some f →
    call.log = log ++
      [{ level := .warn
         message := Bytes.ofAscii "failed to release executable region"
         fields :=
          [(Bytes.ofAscii "size", .number region.size),
            (Bytes.ofAscii "error", .text f.message)] }]) ∧
  ((∀ region, .release region ∈ call.events → s.release region = none) → call.log = log)

structure Follows (s : Service) (out quietOut : Call × Executor) : Prop where
  verdict : out.1.verdict = quietOut.1.verdict
  events : out.1.events = quietOut.1.events
  log : LogsBeyond s out.1 quietOut.1.log
  executor : quiet out.2 = quietOut.2

/-! ## One call -/

theorem follows_of_no_release (s : Service) (e : Executor) {call : Call}
    (hnone : ∀ region, .release region ∉ call.events) : Follows s (call, e) (call, quiet e) where
  verdict := rfl
  events := rfl
  log := ⟨fun region _ hregion => absurd hregion (hnone region), fun _ => rfl⟩
  executor := rfl

theorem follows_finish (e : Executor) (s : Service) (region : Region) {call : Call}
    (hbefore : ∀ other, .release other ∉ call.events) :
    Follows s (e.finish s region call) ((quiet e).finish (quietService s) region call) where
  verdict := rfl
  events := rfl
  log := by
    have honly : ∀ other, .release other ∈ call.events ++ [.release region] → other = region := by
      intro other hother
      rw [List.mem_append, List.mem_singleton] at hother
      rcases hother with hother | hother
      · exact absurd hother (hbefore other)
      · exact Event.release.inj hother
    constructor
    · intro other f hother hfails
      rw [honly other hother] at hfails ⊢
      simp only [finish, hfails, quietService, List.append_nil, releaseEntry]
    · intro hsucceeds
      have hregion := hsucceeds region (List.mem_append_right _ List.mem_cons_self)
      simp only [finish, hregion, quietService]
  executor := rfl

theorem follows_callSealed (e : Executor) (s : Service) (code : Bytes) (region : Region)
    {events : List Event} (hbefore : ∀ other, .release other ∉ events) :
    Follows s (e.callSealed s code region events)
      ((quiet e).callSealed (quietService s) code region events) := by
  have hinvoke : (quietService s).invoke region = s.invoke region := rfl
  have hbefore' : ∀ other, .release other ∉ events ++ [.invoke region] := by
    simpa using hbefore
  unfold callSealed
  rw [hinvoke]
  cases s.invoke region with
  | returned value => exact follows_finish e.countInvoked s region hbefore'
  | aborted message => exact follows_finish e s region hbefore'

theorem follows_useRegion (e : Executor) (s : Service) (code : Bytes) (region : Region) :
    Follows s (e.useRegion s code region) ((quiet e).useRegion (quietService s) code region) := by
  have hseal : (quietService s).sealing (region.write code) = s.sealing (region.write code) := rfl
  unfold useRegion
  by_cases hsize : region.size < code.length
  · rw [if_pos hsize, if_pos hsize]
    apply follows_finish e.countFailure
    simp
  · rw [if_neg hsize, if_neg hsize]
    simp only [hseal]
    cases s.sealing (region.write code) with
    | error f =>
        apply follows_finish e.countFailure
        simp
    | ok protection =>
        apply follows_callSealed
        simp

theorem follows_execute (e : Executor) (code : Bytes) :
    Follows (nextService e) (e.execute code) ((quiet e).execute code) := by
  have hnative : (quiet e).host.native = e.host.native := rfl
  have hacquire : ((quiet e).host.serve (quiet e).requests).acquire code.length =
      (e.host.serve e.requests).acquire code.length := rfl
  unfold execute
  by_cases hlast : code.getLast? ≠ some returnByte
  · rw [if_pos hlast, if_pos hlast]
    apply follows_of_no_release
    simp
  · rw [if_neg hlast, if_neg hlast, hnative]
    by_cases hforeign : e.host.native = false
    · rw [if_pos hforeign, if_pos hforeign]
      apply follows_of_no_release
      simp
    · rw [if_neg hforeign, if_neg hforeign]
      simp only [hacquire]
      cases (e.host.serve e.requests).acquire code.length with
      | error f =>
          apply follows_of_no_release
          simp
      | ok region => exact follows_useRegion _ (nextService e) code region

/-! ## Runs -/

theorem quiet_afterAll (e : Executor) (codes : List Bytes) :
    quiet (afterAll e codes) = afterAll (quiet e) codes := by
  induction codes generalizing e with
  | nil => rfl
  | cons code codes ih =>
      rw [afterAll, afterAll, ih, (follows_execute e code).executor]

theorem counters_quiet (e : Executor) : (quiet e).counters = e.counters := rfl

/-- Two executors whose hosts differ in nothing but their releases stay together over any run.  The
next call comes to the same verdict through the same events and leaves the same counters, and the log
shows one warning more on the side on which the release failed. -/
theorem release_failures_only_logged {e₁ e₂ : Executor} (hsame : quiet e₁ = quiet e₂)
    (codes : List Bytes) (code : Bytes) :
    let before₁ := afterAll e₁ codes
    let before₂ := afterAll e₂ codes
    let out₁ := before₁.execute code
    let out₂ := before₂.execute code
    out₁.1.verdict = out₂.1.verdict ∧
    out₁.1.events = out₂.1.events ∧
    out₁.2.counters = out₂.2.counters ∧
    ∃ log, LogsBeyond (nextService before₁) out₁.1 log ∧
      LogsBeyond (nextService before₂) out₂.1 log := by
  intro before₁ before₂ out₁ out₂
  have hquiet : quiet before₁ = quiet before₂ := by
    rw [quiet_afterAll, quiet_afterAll, hsame]
  have hfirst := follows_execute before₁ code
  have hsecond := follows_execute before₂ code
  rw [← hquiet] at hsecond
  refine ⟨?_, ?_, ?_, _, hfirst.log, hsecond.log⟩
  · rw [hfirst.verdict, hsecond.verdict]
  · rw [hfirst.events, hsecond.events]
  · rw [← counters_quiet, hfirst.executor, ← hsecond.executor, counters_quiet]

/-! ## Scripts -/

def quietEntry (entry : ScriptEntry) : ScriptEntry :=
  { entry with releaseFailure := none }

theorem quietHost_scripted (script : List ScriptEntry) (native : Bool)
    (invoke : Region → Invocation) :
    quietHost (.scripted script native invoke) =
      .scripted (script.map quietEntry) native invoke := by
  have hserve : ∀ k, quietService ((script.getD k {}).service invoke) =
      (((script.map quietEntry).getD k {}).service invoke) := by
    intro k
    have hentry : (script.map quietEntry).getD k {} = quietEntry (script.getD k {}) := by
      rw [List.getD_eq_getElem?_getD, List.getD_eq_getElem?_getD, List.getElem?_map]
      exact Option.getD_map quietEntry {} script[k]?
    rw [hentry]
    rfl
  simp only [quietHost, Host.scripted, hserve]

/-- Releases that fail behind a call that aborts and behind a region that cannot be sealed. -/
theorem release_failures_only_logged_scripted :
    let busy : Failure := .plain (Bytes.ofAscii "busy")
    let host (script : List ScriptEntry) : Host :=
      .scripted script true fun _ => .aborted (Bytes.ofAscii "trap")
    let failing : Executor :=
      { host := host [{ releaseFailure := busy }, { sealFailure := busy, releaseFailure := busy }] }
    let obliging : Executor := { host := host [{}, { sealFailure := busy }] }
    let code : Bytes := [returnByte]
    quiet failing = quiet obliging ∧
    ((afterAll failing [code]).execute code).1.log =
      [{ level := .warn
         message := Bytes.ofAscii "failed to release executable region"
         fields :=
          [(Bytes.ofAscii "size", .number 1),
            (Bytes.ofAscii "error", .text (Bytes.ofAscii "busy"))] }] ∧
    ((afterAll obliging [code]).execute code).1.log = [] ∧
    ((afterAll failing [code]).execute code).1.verdict =
      ((afterAll obliging [code]).execute code).1.verdict ∧
    ∃ log, LogsBeyond (nextService (afterAll failing [code]))
        ((afterAll failing [code]).execute code).1 log ∧
      LogsBeyond (nextService (afterAll obliging [code]))
        ((afterAll obliging [code]).execute code).1 log := by
  intro busy host failing obliging code
  have hsame : quiet failing = quiet obliging := by
    simp only [quiet, failing, obliging, host, quietHost_scripted]
    rfl
  obtain ⟨hverdict, _, _, hlog⟩ := release_failures_only_logged hsame [code] code
  exact ⟨hsame, by decide, by decide, hverdict, hlog⟩

end Accumulator.Proofs.ReleaseFailures
