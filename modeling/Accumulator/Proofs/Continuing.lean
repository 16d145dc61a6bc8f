import Accumulator.Proofs.Batch
import Accumulator.Proofs.Courses
import Accumulator.Proofs.PrintedOutcomes
/-!
# Going on where others left off

An executor numbers its requests and a console its writes, and host and sink may answer by the number.
A loop that comes after others therefore finds another host and another sink than the first one did:
those that the others have left.  Apart from that a loop without dialogue takes no notice of its
forerunners.  It does what a new loop on what they left would do.
-/

namespace Accumulator.Proofs.Continuing

open Evaluating Repl Turns

/-! ## Consoles -/

/-- The sink as a console leaves it to the next one. -/
def sinkLeft (before : Console) : Sink :=
  fun attempts taken text => before.sink (before.attempts + attempts) (before.taken + taken) text

def joined (before c : Console) : Console where
  sink := before.sink
  attempts := before.attempts + c.attempts
  taken := before.taken + c.taken
  writes := c.writes ++ before.writes

theorem output_joined (before c : Console) :
    (joined before c).output = before.output ++ c.output := by
  simp [Console.output, joined]

theorem joined_new (c : Console) (sink : Sink) : joined c { sink } = c := rfl

theorem write_joined {before c : Console} (hsink : c.sink = sinkLeft before) (text : Bytes) :
    (joined before c).write text = ((c.write text).1, joined before (c.write text).2) := by
  have hasked : (joined before c).sink (joined before c).attempts (joined before c).taken text =
      c.sink c.attempts c.taken text := by
    rw [hsink]
    rfl
  unfold Console.write
  rw [hasked]
  cases c.sink c.attempts c.taken text with
  | some f => rfl
  | none => simp [joined, Nat.add_assoc]

theorem put_joined {before c : Console} (hsink : c.sink = sinkLeft before) (text : Bytes) :
    (joined before c).put text = joined before (c.put text) := by
  rw [Console.put, write_joined hsink]
  rfl

theorem listed_joined {before c : Console} (hsink : c.sink = sinkLeft before) (config : ReplConfig)
    (source : Bytes) :
    listed config (joined before c) source = joined before (listed config c source) := by
  unfold listed
  rw [put_joined hsink]
  split <;> rfl

theorem reported_joined {before c : Console} (hsink : c.sink = sinkLeft before)
    (config : ReplConfig) (report : Report) (failure : Option Failure) :
    reported config (joined before c) report failure =
      ((reported config c report failure).1, joined before (reported config c report failure).2) := by
  cases hrender : report.render? config.format with
  | none => rw [reported_of_none hrender, reported_of_none hrender]
  | some text => rw [reported_of_some hrender, reported_of_some hrender, write_joined hsink]

/-! ## Executors -/

def hostAfter (host : Host) (requests : Nat) : Host where
  native := host.native
  serve k := host.serve (requests + k)

def hostLeft (before : Executor) : Host :=
  hostAfter before.host before.requests

def addCounters (a b : Counters) : Counters where
  acquired := a.acquired + b.acquired
  released := a.released + b.released
  invoked := a.invoked + b.invoked
  failures := a.failures + b.failures

def resumed (before e : Executor) : Executor where
  host := before.host
  requests := before.requests + e.requests
  counters := addCounters before.counters e.counters

theorem callSealed_resumed (before e : Executor) (service : Service) (code : Bytes)
    (region : Region) (events : List Event) :
    (resumed before e).callSealed service code region events =
      ((e.callSealed service code region events).1,
        resumed before (e.callSealed service code region events).2) := by
  unfold Executor.callSealed
  cases service.invoke region <;> rfl

theorem useRegion_resumed (before e : Executor) (service : Service) (code : Bytes)
    (region : Region) :
    (resumed before e).useRegion service code region =
      ((e.useRegion service code region).1, resumed before (e.useRegion service code region).2) := by
  unfold Executor.useRegion
  by_cases hshort : region.size < code.length
  · rw [if_pos hshort, if_pos hshort]
    rfl
  · rw [if_neg hshort, if_neg hshort]
    simp only
    cases service.sealing (region.write code) with
    | error f => rfl
    | ok protection => exact callSealed_resumed before e _ _ _ _

theorem execute_resumed {before e : Executor} (hhost : e.host = hostLeft before) (code : Bytes) :
    (resumed before e).execute code = ((e.execute code).1, resumed before (e.execute code).2) := by
  have hnative : (resumed before e).host.native = e.host.native := by
    rw [hhost]
    rfl
  have hservice : (resumed before e).host.serve (resumed before e).requests =
      e.host.serve e.requests := by
    rw [hhost]
    rfl
  unfold Executor.execute
  rw [hnative, hservice]
  by_cases hret : code.getLast? ≠ some Executor.returnByte
  · rw [if_pos hret, if_pos hret]
  · rw [if_neg hret, if_neg hret]
    by_cases hunsupported : e.host.native = false
    · rw [if_pos hunsupported, if_pos hunsupported]
    · rw [if_neg hunsupported, if_neg hunsupported]
      simp only
      cases (e.host.serve e.requests).acquire code.length with
      | error f => rfl
      | ok region =>
          exact useRegion_resumed before
            ({ e with requests := e.requests + 1 } : Executor).countAcquired _ code region

theorem hostAfter_of_steady {host : Host} (hsteady : ∀ k, host.serve k = host.serve 0)
    (requests : Nat) : hostAfter host requests = host := by
  have hserve : (fun k => host.serve (requests + k)) = host.serve := by
    funext k
    rw [hsteady (requests + k), hsteady k]
  rw [hostAfter, hserve]

/-! ## What a loop stays with -/

structure Stays (before after : Repl) : Prop where
  mode : after.engine.mode = before.engine.mode
  host : after.engine.executor.host = before.engine.executor.host
  sink : after.console.sink = before.console.sink

theorem Stays.trans {a b c : Repl} (hab : Stays a b) (hbc : Stays b c) : Stays a c :=
  ⟨hbc.mode.trans hab.mode, hbc.host.trans hab.host, hbc.sink.trans hab.sink⟩

theorem mode_run (engine : Engine) (code : Bytes) : (engine.run code).2.mode = engine.mode := by
  obtain ⟨mode, executor⟩ := engine
  unfold Engine.run
  cases mode with
  | emulate => cases Machine.emulate code <;> rfl
  | native => rfl

theorem stays_turn (r : Repl) (failedReads : Nat) (read : Read) :
    Stays r (r.turn failedReads read).repl := by
  have hsink := (Courses.extends_turn r failedReads read).sink
  rcases engine_turn r failedReads read with hengine | hengine
  · exact ⟨by rw [hengine], by rw [hengine], hsink⟩
  · refine ⟨?_, ?_, hsink⟩
    · rw [hengine, Engine.compileAndRun, mode_run]
    · rw [hengine, Engine.compileAndRun, PrintedOutcomes.host_run]

/-! ## Loops -/

structure Past where
  executor : Executor
  console : Console

namespace Past

def engine (p : Past) (e : Engine) : Engine :=
  ⟨e.mode, resumed p.executor e.executor⟩

def repl (p : Past) (r : Repl) : Repl :=
  { r with engine := p.engine r.engine, console := joined p.console r.console }

/-- The loop has no dialogue, and it runs on what the forerunners have left. -/
structure Precedes (p : Past) (r : Repl) : Prop where
  host : r.engine.executor.host = hostLeft p.executor
  sink : r.console.sink = sinkLeft p.console
  batch : r.config.interactive = false

end Past

variable {p : Past} {r : Repl}

theorem compileAndRun_engine {e : Engine} (hhost : e.executor.host = hostLeft p.executor)
    (source : Bytes) :
    (p.engine e).compileAndRun source =
      ((e.compileAndRun source).1, p.engine (e.compileAndRun source).2) := by
  obtain ⟨mode, executor⟩ := e
  unfold Engine.compileAndRun Engine.run Past.engine
  cases mode with
  | emulate => cases Machine.emulate (Program.compile source).code <;> rfl
  | native =>
      simp only
      rw [execute_resumed hhost]

theorem outcomeOf_repl (hpast : p.Precedes r) (source : Bytes) :
    outcomeOf (p.repl r) source =
      ((outcomeOf r source).1, joined p.console (outcomeOf r source).2) := by
  have hcall : ((p.repl r).engine.compileAndRun source).1 = (r.engine.compileAndRun source).1 := by
    rw [Past.repl, compileAndRun_engine hpast.host]
  have hlisted : listed (p.repl r).config (p.repl r).console source =
      joined p.console (listed r.config r.console source) :=
    listed_joined hpast.sink r.config source
  have hsink : (listed r.config r.console source).sink = sinkLeft p.console :=
    (extends_listed r.config r.console source).sink.trans hpast.sink
  unfold outcomeOf
  simp only [hcall, hlisted]
  cases (r.engine.compileAndRun source).1.verdict with
  | aborted message => rfl
  | value v => exact reported_joined hsink _ _ _
  | failed f => exact reported_joined hsink _ _ _

theorem eval_repl (hpast : p.Precedes r) (source : Bytes) :
    (p.repl r).eval source = ((r.eval source).1, p.repl (r.eval source).2) := by
  have hrun : (p.repl r).engine.compileAndRun source =
      ((r.engine.compileAndRun source).1, p.engine (r.engine.compileAndRun source).2) :=
    compileAndRun_engine hpast.host source
  rw [eval_eq, eval_eq, outcomeOf_repl hpast, hrun]
  rfl

theorem evalLine_repl (hpast : p.Precedes r) (line : Bytes) :
    Batch.evalLine (p.repl r) line =
      ((Batch.evalLine r line).1, p.repl (Batch.evalLine r line).2) := by
  unfold Batch.evalLine
  rw [eval_repl hpast]
  split <;> rfl

def Past.turn (p : Past) (t : Turn) : Turn :=
  { t with repl := p.repl t.repl }

theorem onLine_repl (hpast : p.Precedes r) (line : Bytes) (ended : Bool) :
    (p.repl r).onLine line ended = p.turn (r.onLine line ended) := by
  have hbatch : (p.repl r).config.interactive = false := hpast.batch
  rw [Batch.onLine_batch hbatch, Batch.onLine_batch hpast.batch, evalLine_repl hpast]
  generalize Batch.evalLine r line = evaluated
  obtain ⟨ending, after⟩ := evaluated
  cases ending <;> rfl

theorem onReadFailure_repl (hpast : p.Precedes r) (failedReads : Nat) (f : Failure) :
    (p.repl r).onReadFailure failedReads f = p.turn (r.onReadFailure failedReads f) := by
  unfold onReadFailure put
  show Turn.mk _ _ { p.repl r with console := (joined p.console r.console).put _ } = _
  rw [put_joined hpast.sink]
  rfl

theorem asked_batch (hbatch : r.config.interactive = false) :
    asked r = { r with line := r.line + 1 } := by
  unfold asked ask
  rw [hbatch]
  rfl

theorem turn_repl (hpast : p.Precedes r) (failedReads : Nat) (read : Read) :
    (p.repl r).turn failedReads read = p.turn (r.turn failedReads read) := by
  have hasked : asked (p.repl r) = p.repl (asked r) := by
    have hbatch : (p.repl r).config.interactive = false := hpast.batch
    rw [asked_batch hpast.batch, asked_batch hbatch]
    rfl
  have hnext : p.Precedes (asked r) := by
    rw [asked_batch hpast.batch]
    exact ⟨hpast.host, hpast.sink, hpast.batch⟩
  rw [turn_eq, turn_eq, hasked]
  cases read.failure with
  | none => exact onLine_repl hnext _ false
  | some f =>
      simp only
      split
      · exact onLine_repl hnext _ true
      · exact onReadFailure_repl hnext failedReads f

theorem Past.Precedes.turn (hpast : p.Precedes r) (failedReads : Nat) (read : Read) :
    p.Precedes (r.turn failedReads read).repl where
  host := (stays_turn r failedReads read).host.trans hpast.host
  sink := (stays_turn r failedReads read).sink.trans hpast.sink
  batch := by
    obtain ⟨_, _, _, _, hframe⟩ := Courses.turn_frame r failedReads read
    rw [hframe]
    exact hpast.batch

def Past.run (p : Past) (run : Run) : Run :=
  { run with repl := p.repl run.repl }

theorem loop_repl (hpast : p.Precedes r) (failedReads : Nat) (failures : List Failure)
    (reads : List Read) :
    (p.repl r).loop failedReads failures reads = p.run (r.loop failedReads failures reads) := by
  induction reads generalizing r failedReads failures with
  | nil =>
      have hlast : p.Precedes { r with reads := [] } := ⟨hpast.host, hpast.sink, hpast.batch⟩
      have hturn := turn_repl hlast failedReads .atEnd
      exact congrArg (lastTurn · failures) hturn
  | cons read rest ih =>
      have hnext : p.Precedes { r with reads := rest } := ⟨hpast.host, hpast.sink, hpast.batch⟩
      have hafter := hnext.turn failedReads read
      have hturn : ({ p.repl r with reads := rest } : Repl).turn failedReads read =
          p.turn (({ r with reads := rest } : Repl).turn failedReads read) :=
        turn_repl hnext failedReads read
      unfold loop
      rw [hturn]
      generalize ({ r with reads := rest } : Repl).turn failedReads read = t at hafter ⊢
      obtain ⟨next, more, after⟩ := t
      cases next with
      | goOn n => exact ih hafter n _
      | stop reason => rfl
      | crash message => rfl

theorem run_repl (hpast : p.Precedes r) : (p.repl r).run = p.run r.run := by
  have hgreet : ∀ s : Repl, s.config.interactive = false → s.greet = s := by
    intro s hbatch
    unfold greet
    rw [hbatch]
    rfl
  unfold Repl.run
  rw [hgreet r hpast.batch, hgreet (p.repl r) hpast.batch]
  exact loop_repl hpast 0 [] r.reads

end Accumulator.Proofs.Continuing
