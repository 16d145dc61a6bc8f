import Accumulator.Cli.Run
import Accumulator.Proofs.Agreement
import Accumulator.Proofs.Continuing
/-!
# Loops on dependable hosts

A host may refuse any request, and it may abort when it is made to call bad code.  Compiled programs
are never bad code.  On a host that comes back from them, and that gives a reason when it refuses
something, no program crashes a loop, and every run returns.  Hosts that map pages are such hosts,
whatever the kernel under them refuses.
-/

namespace Accumulator.Proofs.DependableHosts

open Agreement Compilation Continuing Evaluating Execution PrintedOutcomes Repl Turns

/-- Compiled code that is called comes back, and whatever is refused is refused with a message. -/
structure Dependable (host : Host) : Prop where
  returns : ∀ (k : Nat) {source : Bytes} {region : Region} (protection : Protection),
    (Program.compile source).code.length ≤ region.size →
      ∃ value, (host.serve k).invoke
        ((region.write (Program.compile source).code).protect protection) = .returned value
  speaks : Speaks host

theorem speaks_pages (p : Pages) (kernels : Nat → Kernel) (invoke : Region → Invocation) :
    Speaks (.pages p kernels invoke) := by
  intro k
  constructor
  · intro size
    show Pages.acquire _ _ _ ≠ _
    unfold Pages.acquire
    split <;> exact nofun
  · intro region
    show Pages.sealing _ _ _ ≠ _
    unfold Pages.sealing
    split
    · exact nofun
    · split <;> exact nofun

theorem dependable_pages (p : Pages) (kernels : Nat → Kernel) :
    Dependable (.pages p kernels Invocation.emulate) where
  returns := by
    intro k source region protection hsize
    refine ⟨Meaning.meaning source, ?_⟩
    show Invocation.emulate _ = _
    rw [Invocation.emulate, Region.protect, bytes_write hsize, emulate_compile_append]
  speaks := speaks_pages p kernels _

theorem dependable_standard (strict : Bool) : Dependable (.standard strict) :=
  dependable_pages _ _

/-! ## Programs -/

variable {engine : Engine} {r : Repl}

theorem ne_aborted_of_dependable (hhost : Dependable engine.executor.host)
    (source message : Bytes) : (engine.compileAndRun source).1.verdict ≠ .aborted message := by
  unfold Engine.compileAndRun Engine.run
  cases engine.mode with
  | emulate => cases Machine.emulate (Program.compile source).code <;> exact nofun
  | native =>
      have hout := outcome_execute engine.executor (Program.compile source).code
      simp only
      generalize engine.executor.execute (Program.compile source).code = out at hout ⊢
      cases hout with
      | aborted region protection text _ _ hsize _ hinvoke =>
          obtain ⟨value, hreturned⟩ := hhost.returns engine.executor.requests protection hsize
          rw [nextService, hreturned] at hinvoke
          cases hinvoke
      | _ => exact nofun

theorem printed_of_dependable (hhost : Dependable r.engine.executor.host) (source : Bytes) :
    ∃ text failure,
      Printed source r.config.format (r.engine.compileAndRun source).1.verdict text ∧
      (r.eval source).1 = .finished failure ∧
      (r.eval source).2.console = ((listed r.config r.console source).write text).2 :=
  printed_eval (ne_aborted_of_dependable hhost source) (run_ne_silent hhost.speaks _)

/-! ## Runs -/

theorem turn_ne_crash_of_dependable (hhost : Dependable r.engine.executor.host) (failedReads : Nat)
    (read : Read) (message : Option Bytes) : (r.turn failedReads read).next ≠ .crash message := by
  intro hcrash
  have hasked : Dependable (asked r).engine.executor.host := by
    rw [(keeps_asked r).engine]
    exact hhost
  obtain ⟨text, failure, _, hfinished, _⟩ := printed_of_dependable hasked (trimLineEnd read.text)
  rw [eval_of_crash hcrash] at hfinished
  cases hfinished

theorem run_of_dependable (hhost : Dependable r.engine.executor.host) :
    (∃ reason, r.run.ending = .stopped reason) ∧ Stays r r.run.repl := by
  have hgreet := keeps_greet r
  have hstart : Stays r r.greet :=
    ⟨by rw [hgreet.engine], by rw [hgreet.engine], hgreet.console.sink⟩
  have hends : Ends (fun s _ => Stays r s) r.run :=
    ends_run (fun _ _ _ hstays => ⟨hstays.mode, hstays.host, hstays.sink⟩)
      (fun _ _ _ _ hstays _ => hstays.trans (stays_turn _ _ _)) hstart
  cases hends with
  | stopped reason hending hstays => exact ⟨⟨reason, hending⟩, hstays⟩
  | crashed message _ last _ failedReads read hstays hcrash =>
      rw [← hstays.host] at hhost
      exact absurd hcrash (turn_ne_crash_of_dependable hhost failedReads read message)

end Accumulator.Proofs.DependableHosts
