import Accumulator.Executor.Script
import Accumulator.Proofs.Execution
import Accumulator.Proofs.Lines
import Accumulator.Proofs.Turns
/-!
# One outcome for each program

A report shows a value or a message, and which of the two it is gets decided by whether there is any
message text.  All failures but one have some: whatever they wrap, they add words of their own.  The
exception is a plain failure with an empty message.  A line of text cannot be made from it at all,
and the object for it shows neither a value nor an error.
-/

namespace Accumulator.Proofs.PrintedOutcomes

open Evaluating Execution Executor Repl Turns

/-! ## Messages -/

def silent : Failure :=
  .plain []

theorem message_fault_ne_nil (fault : Machine.Fault) : fault.message ≠ [] := by
  cases fault with
  | divideByZero offset => exact List.append_ne_nil_of_left_ne_nil (by decide) _
  | wideDividend offset => exact List.append_ne_nil_of_left_ne_nil (by decide) _
  | unknownByte byte offset =>
      rw [Machine.Fault.message, List.append_assoc]
      exact List.append_ne_nil_of_left_ne_nil (by decide) _
  | noReturn => decide

theorem message_eq_nil_iff (f : Failure) : f.message = [] ↔ f = silent := by
  constructor
  · intro hmessage
    cases f with
    | plain message => exact congrArg Failure.plain hmessage
    | unknown => exact absurd hmessage (by decide)
    | endOfInput => exact absurd hmessage (by decide)
    | unsupported => exact absurd hmessage (by decide)
    | invalidCode => exact absurd hmessage (by decide)
    | emulation fault => exact absurd hmessage (message_fault_ne_nil fault)
    | allocation operation size cause => simp [Failure.message, Bytes.ofAscii] at hmessage
    | context text cause => simp [Failure.message, Bytes.ofAscii] at hmessage
    | reading line cause => simp [Failure.message, Bytes.ofAscii] at hmessage
    | program line source cause => simp [Failure.message, Bytes.ofAscii] at hmessage
  · intro hf
    rw [hf]
    rfl

/-! ## Hosts -/

def Returns (host : Host) : Prop :=
  ∀ k region message, (host.serve k).invoke region ≠ .aborted message

/-- Whatever cannot be acquired or sealed fails with a message. -/
def Speaks (host : Host) : Prop :=
  ∀ k, (∀ size, (host.serve k).acquire size ≠ .error silent) ∧
    ∀ region, (host.serve k).sealing region ≠ .error silent

theorem execute_ne_aborted {e : Executor} (hreturns : Returns e.host) (code message : Bytes) :
    (e.execute code).1.verdict ≠ .aborted message := by
  have hout := outcome_execute e code
  generalize e.execute code = out at hout ⊢
  cases hout with
  | aborted region protection text _ _ _ _ hinvoke => exact absurd hinvoke (hreturns _ _ text)
  | _ => exact nofun

theorem execute_ne_silent {e : Executor} (hspeaks : Speaks e.host) (code : Bytes) :
    (e.execute code).1.verdict ≠ .failed silent := by
  by_cases hpasses : Passes e.host code
  · have hout := outcome_execute e code
    generalize e.execute code = out at hout ⊢
    cases hout with
    | rejected f hrejected => exact absurd hpasses hrejected
    | refused f _ hacquire =>
        intro hverdict
        cases hverdict
        exact (hspeaks _).1 _ hacquire
    | short => exact nofun
    | unsealed region f _ _ _ hseal =>
        intro hverdict
        cases hverdict
        exact (hspeaks _).2 _ hseal
    | returned => exact nofun
    | aborted => exact nofun
  · rcases verdict_of_not_passes hpasses with hverdict | hverdict
    all_goals
      rw [hverdict]
      exact nofun

theorem run_ne_aborted {engine : Engine} (hreturns : Returns engine.executor.host)
    (code message : Bytes) : (engine.run code).1.verdict ≠ .aborted message := by
  unfold Engine.run
  cases engine.mode with
  | emulate => cases Machine.emulate code <;> exact nofun
  | native => exact execute_ne_aborted hreturns code message

theorem run_ne_silent {engine : Engine} (hspeaks : Speaks engine.executor.host) (code : Bytes) :
    (engine.run code).1.verdict ≠ .failed silent := by
  unfold Engine.run
  cases engine.mode with
  | emulate => cases Machine.emulate code <;> exact nofun
  | native => exact execute_ne_silent hspeaks code

theorem host_run (engine : Engine) (code : Bytes) :
    (engine.run code).2.executor.host = engine.executor.host := by
  unfold Engine.run
  cases engine.mode with
  | emulate => cases Machine.emulate code <;> rfl
  | native => exact host_execute engine.executor code

/-! ## What is printed -/

def object (members : List (String × Bytes)) : Bytes :=
  let member (m : String × Bytes) := Text.Json.string (Bytes.ofAscii m.1) ++ Bytes.ofAscii ":" ++ m.2
  Bytes.line
    (Bytes.ofAscii "\x7b" ++ Bytes.joinWith (Bytes.ofAscii ",") (members.map member) ++
      Bytes.ofAscii "\x7d")

theorem json_eq_object (report : Report) : report.json = object report.members :=
  rfl

/-- What is printed for a program that has come to a verdict: in each format a value or an error. -/
inductive Printed (source : Bytes) : Format → Verdict → Bytes → Prop where
  | numberLine (v : Int64) :
      Printed source .text (.value v) (Bytes.line (Text.decimal v.toInt))
  | messageLine (f : Failure) :
      Printed source .text (.failed f) (errorLine f)
  | resultObject (v : Int64) :
      Printed source .json (.value v)
        (object [("source", Text.Json.string source), ("result", Text.decimal v.toInt)])
  | errorObject (f : Failure) :
      Printed source .json (.failed f)
        (object [("source", Text.Json.string source), ("error", Text.Json.string f.message)])

/-- A line of text tells which of the two it is: no numeral starts with a letter. -/
theorem Printed.isError_iff {source text : Bytes} {verdict : Verdict}
    (hprinted : Printed source .text verdict text) :
    Bytes.ofAscii "error: " <+: text ↔ ∃ f, verdict = .failed f := by
  cases hprinted with
  | numberLine v =>
      constructor
      · intro hstarts
        have hletter : Bytes.ofChar 'e' ∈ Text.decimal v.toInt ++ [Bytes.newline] :=
          hstarts.mem (by decide)
        rcases List.mem_append.1 hletter with hdigit | hnewline
        · have hbounds := Lines.toNat_of_mem_decimal hdigit
          exact absurd hbounds (by decide)
        · exact absurd hnewline (by decide)
      · rintro ⟨f, hverdict⟩
        cases hverdict
  | messageLine f =>
      have hstarts : Bytes.ofAscii "error: " <+: errorLine f := by
        rw [errorLine, Bytes.line, List.append_assoc]
        exact List.prefix_append _ _
      exact ⟨fun _ => ⟨f, rfl⟩, fun _ => hstarts⟩

theorem render_value (source : Bytes) (v : Int64) (format : Format) :
    ∃ text, Report.render? { source, value := some v } format = some text ∧
      Printed source format (.value v) text := by
  cases format with
  | text => exact ⟨_, rfl, .numberLine v⟩
  | json => exact ⟨_, congrArg some (json_eq_object _), .resultObject v⟩

theorem render_failed (source : Bytes) {f : Failure} (hmessage : f.message ≠ []) (format : Format) :
    ∃ text, Report.render? { source, error := f.message } format = some text ∧
      Printed source format (.failed f) text := by
  cases format with
  | text => exact ⟨_, (render?_text_failed source f).trans (if_pos hmessage), .messageLine f⟩
  | json =>
      refine ⟨_, congrArg some ?_, .errorObject f⟩
      rw [json_eq_object, Report.members, if_neg hmessage]
      rfl

theorem printed_eval {r : Repl} {source : Bytes}
    (haborted : ∀ message, (r.engine.compileAndRun source).1.verdict ≠ .aborted message)
    (hsilent : (r.engine.compileAndRun source).1.verdict ≠ .failed silent) :
    ∃ text failure,
      Printed source r.config.format (r.engine.compileAndRun source).1.verdict text ∧
      (r.eval source).1 = .finished failure ∧
      (r.eval source).2.console = ((listed r.config r.console source).write text).2 := by
  rw [eval_eq]
  unfold outcomeOf
  cases hverdict : (r.engine.compileAndRun source).1.verdict with
  | aborted message => exact absurd hverdict (haborted message)
  | value v =>
      obtain ⟨text, hrender, hprinted⟩ := render_value source v r.config.format
      simp only [reported_of_some hrender]
      exact ⟨text, _, hprinted, rfl, rfl⟩
  | failed f =>
      have hmessage : f.message ≠ [] := by
        intro hnil
        rw [(message_eq_nil_iff f).1 hnil] at hverdict
        exact hsilent hverdict
      obtain ⟨text, hrender, hprinted⟩ := render_failed source hmessage r.config.format
      simp only [reported_of_some hrender]
      exact ⟨text, _, hprinted, rfl, rfl⟩

theorem eval_silent {r : Repl} {source : Bytes}
    (hsilent : (r.engine.compileAndRun source).1.verdict = .failed silent) :
    (r.config.format = .text → (r.eval source).1 = .crashed none ∧
      (r.eval source).2.console = listed r.config r.console source) ∧
    (r.config.format = .json → (r.eval source).2.console =
      ((listed r.config r.console source).write
        (object [("source", Text.Json.string source)])).2) := by
  rw [eval_eq]
  simp only [outcomeOf, hsilent]
  constructor
  · intro hformat
    rw [reported_of_none (by rw [hformat]; rfl)]
    exact ⟨rfl, rfl⟩
  · intro hformat
    rw [reported_of_some (by rw [hformat]; rfl)]
    rfl

/-! ## Runs -/

def Reliable (r : Repl) : Prop :=
  Returns r.engine.executor.host ∧ Speaks r.engine.executor.host

theorem Reliable.of_engine_eq {before after : Repl} (hreliable : Reliable before)
    (hengine : after.engine = before.engine) : Reliable after := by
  unfold Reliable
  rw [hengine]
  exact hreliable

theorem Reliable.asked {r : Repl} (hreliable : Reliable r) : Reliable (asked r) :=
  hreliable.of_engine_eq (keeps_asked r).engine

theorem Reliable.turn {r : Repl} (hreliable : Reliable r) (failedReads : Nat) (read : Read) :
    Reliable (r.turn failedReads read).repl := by
  rcases engine_turn r failedReads read with hengine | hengine
  · exact hreliable.of_engine_eq hengine
  · unfold Reliable
    rw [hengine, Engine.compileAndRun, host_run]
    exact hreliable

theorem Reliable.printed_eval {r : Repl} (hreliable : Reliable r) (source : Bytes) :
    ∃ text failure,
      Printed source r.config.format (r.engine.compileAndRun source).1.verdict text ∧
      (r.eval source).1 = .finished failure ∧
      (r.eval source).2.console = ((listed r.config r.console source).write text).2 :=
  PrintedOutcomes.printed_eval (run_ne_aborted hreliable.1 _) (run_ne_silent hreliable.2 _)

theorem Reliable.turn_ne_crash {r : Repl} (hreliable : Reliable r) (failedReads : Nat) (read : Read)
    (message : Option Bytes) : (r.turn failedReads read).next ≠ .crash message := by
  intro hcrash
  have hcrashed := eval_of_crash hcrash
  obtain ⟨text, failure, _, hfinished, _⟩ := hreliable.asked.printed_eval (trimLineEnd read.text)
  rw [hfinished] at hcrashed
  cases hcrashed

theorem Reliable.goes_on {r : Repl} (hreliable : Reliable r) (failedReads : Nat) {read : Read}
    (hread : read.failure = none) (hprogram : readsCommand r (trimLineEnd read.text) = false) :
    (r.turn failedReads read).next = .goOn 0 := by
  have hgoes := hreliable.turn_ne_crash failedReads read
  have hway := way_turn r failedReads read
  generalize r.turn failedReads read = t at hgoes hway ⊢
  cases hway with
  | failedRead f hfailed =>
      rw [hread] at hfailed
      cases hfailed
  | command ended _ hcommand =>
      rw [hprogram] at hcommand
      cases hcommand
  | blank ended hover =>
      rw [hover.ended_eq_false hread]
      rfl
  | program ended hover =>
      rw [hover.ended_eq_false hread] at hgoes ⊢
      generalize (Turns.asked r).eval (trimLineEnd read.text) = evaluated at hgoes ⊢
      obtain ⟨ending, after⟩ := evaluated
      cases ending with
      | crashed message => exact absurd rfl (hgoes message)
      | finished failure => rfl

/-- What is printed for an evaluation was written to the console, or at least tried. -/
def Shown (format : Format) (console : Console) (ev : Evaluation) : Prop :=
  ∃ text accepted, Printed ev.source format ev.call.verdict text ∧ ⟨text, accepted⟩ ∈ console.writes

theorem lasts_shown (format : Format) : Lasts fun console _ ev => Shown format console ev := by
  intro before after failures more ev hshown hextends _
  obtain ⟨text, accepted, hprinted, hmem⟩ := hshown
  exact ⟨text, accepted, hprinted, hextends.writes.mem hmem⟩

theorem mem_write (c : Console) (text : Bytes) :
    ∃ accepted, ⟨text, accepted⟩ ∈ (c.write text).2.writes := by
  unfold Console.write
  cases c.sink c.attempts c.taken text with
  | none => exact ⟨true, List.mem_cons_self⟩
  | some f => exact ⟨false, List.mem_cons_self⟩

theorem Reliable.shown_eval {r : Repl} (hreliable : Reliable r) (source : Bytes) :
    Shown r.config.format (r.eval source).2.console
      ⟨r.line, source, (r.engine.compileAndRun source).1⟩ := by
  obtain ⟨text, failure, hprinted, _, hconsole⟩ := hreliable.printed_eval source
  obtain ⟨accepted, hmem⟩ := mem_write (listed r.config r.console source) text
  rw [hconsole]
  exact ⟨text, accepted, hprinted, hmem⟩

def Kept (start r : Repl) (failures : List Failure) : Prop :=
  Reliable r ∧ EachSince start (fun console _ ev => Shown start.config.format console ev) r failures

theorem Kept.turn {start r : Repl} {failures : List Failure} (hkept : Kept start r failures)
    {failedReads : Nat} {read : Read}
    (hgoes : ∀ message, (r.turn failedReads read).next ≠ .crash message) :
    Kept start (r.turn failedReads read).repl
      (failures ++ (r.turn failedReads read).failures) := by
  obtain ⟨hreliable, heach⟩ := hkept
  refine ⟨hreliable.turn failedReads read, heach.turn (lasts_shown _) ?_ hgoes⟩
  intro source failure _
  rw [← heach.format, ← (keeps_asked r).format]
  exact hreliable.asked.shown_eval source

theorem Reliable.run {r : Repl} (hreliable : Reliable r) :
    (∃ reason, r.run.ending = .stopped reason) ∧
    ∃ new, r.run.repl.evaluations = new ++ r.evaluations ∧
      ∀ ev ∈ new, Shown r.config.format r.run.repl.console ev := by
  have hstart : Kept r r.greet [] :=
    ⟨hreliable.of_engine_eq (keeps_greet r).engine, eachSince_greet (lasts_shown _)⟩
  have hends : Ends (Kept r) r.run :=
    ends_run (fun _ _ _ hkept => ⟨hkept.1, hkept.2.format, hkept.2.encoder, hkept.2.each⟩)
      (fun _ _ _ _ hkept hgoes => hkept.turn hgoes) hstart
  cases hends with
  | stopped reason hending hkept => exact ⟨⟨reason, hending⟩, hkept.2.each⟩
  | crashed message _ last _ failedReads read hkept hcrash =>
      exact absurd hcrash (hkept.1.turn_ne_crash failedReads read message)

/-- On a host where code that is called comes back, every program is printed as its value or as its
error, and the evaluation returns, unless the program failed without a message: then a line of text
ends in a crash and an object shows neither.  If every failure of the host has a message, the loop
goes on after every program, and a run returns with all its programs printed. -/
theorem one_outcome_per_program (r : Repl) (hreturns : Returns r.engine.executor.host) :
    (∀ source : Bytes,
      let verdict := (r.engine.compileAndRun source).1.verdict
      let console := listed r.config r.console source
      (verdict ≠ .failed silent →
        ∃ text failure, Printed source r.config.format verdict text ∧
          (r.config.format = .text →
            (Bytes.ofAscii "error: " <+: text ↔ ∃ f, verdict = .failed f)) ∧
          (r.eval source).1 = .finished failure ∧
          (r.eval source).2.console = (console.write text).2) ∧
      (verdict = .failed silent →
        (r.config.format = .text →
          (r.eval source).1 = .crashed none ∧ (r.eval source).2.console = console) ∧
        (r.config.format = .json →
          (r.eval source).2.console =
            (console.write (object [("source", Text.Json.string source)])).2))) ∧
    (Speaks r.engine.executor.host →
      (∀ failedReads read, read.failure = none →
        readsCommand r (trimLineEnd read.text) = false →
        (r.turn failedReads read).next = .goOn 0) ∧
      (∃ reason, r.run.ending = .stopped reason) ∧
      ∃ new, r.run.repl.evaluations = new ++ r.evaluations ∧
        ∀ ev ∈ new, Shown r.config.format r.run.repl.console ev) := by
  constructor
  · intro source
    refine ⟨?_, eval_silent⟩
    intro hsilent
    obtain ⟨text, failure, hprinted, hend⟩ := printed_eval (run_ne_aborted hreturns _) hsilent
    refine ⟨text, failure, hprinted, ?_, hend⟩
    intro hformat
    rw [hformat] at hprinted
    exact hprinted.isError_iff
  · intro hspeaks
    have hreliable : Reliable r := ⟨hreturns, hspeaks⟩
    refine ⟨?_, hreliable.run⟩
    intro failedReads read hread hprogram
    exact hreliable.goes_on failedReads hread hprogram

theorem speaks_scripted {script : List ScriptEntry} {native : Bool} {invoke : Region → Invocation}
    (hscript : ∀ entry ∈ script,
      entry.acquireFailure ≠ some silent ∧ entry.sealFailure ≠ some silent) :
    Speaks (.scripted script native invoke) := by
  intro k
  have hentry : (script.getD k {}).acquireFailure ≠ some silent ∧
      (script.getD k {}).sealFailure ≠ some silent := by
    rw [List.getD_eq_getElem?_getD]
    cases hget : script[k]? with
    | none => exact ⟨nofun, nofun⟩
    | some entry => exact hscript entry (List.mem_of_getElem? hget)
  simp only [Host.scripted, ScriptEntry.service]
  constructor
  · intro size
    cases hacquire : (script.getD k {}).acquireFailure with
    | none => exact nofun
    | some f =>
        intro hf
        cases hf
        exact hentry.1 hacquire
  · intro region
    cases hseal : (script.getD k {}).sealFailure with
    | none => exact nofun
    | some f =>
        intro hf
        cases hf
        exact hentry.2 hseal

def plusThenMinus (format : Format) (f : Failure) : Repl where
  config := { interactive := false, format }
  engine := .on .native (.scripted [{ acquireFailure := f }] true fun _ => .returned 0)
  reads := Read.ofItems [.data (Bytes.ofAscii "+\n-\n")]
  console := { sink := .unlimited }

/-- A failure without a message that is wrapped without a text still has a message: the colon. -/
theorem one_outcome_per_program_wrapped :
    let r := plusThenMinus .text (.context [] silent)
    Returns r.engine.executor.host ∧ Speaks r.engine.executor.host ∧
    r.run.repl.console.output = Bytes.ofAscii "error: : \n0\n" ∧
    (∃ reason, r.run.ending = .stopped reason) ∧
    ∃ new, r.run.repl.evaluations = new ++ r.evaluations ∧
      ∀ ev ∈ new, Shown r.config.format r.run.repl.console ev := by
  intro r
  have hreturns : Returns r.engine.executor.host := fun _ _ _ => nofun
  have hspeaks : Speaks r.engine.executor.host := speaks_scripted (by decide)
  exact ⟨hreturns, hspeaks, by decide, ((one_outcome_per_program r hreturns).2 hspeaks).2⟩

/-- A failure without a message: in text the run crashes at the first program and never comes to the
second; as an object the first program has neither a result nor an error. -/
theorem silent_failure_crashes :
    Returns (plusThenMinus .text silent).engine.executor.host ∧
    (plusThenMinus .text silent).run.ending = .crashed none ∧
    (plusThenMinus .text silent).run.repl.console.output = [] ∧
    (plusThenMinus .text silent).run.repl.evaluations.length = 1 ∧
    (plusThenMinus .json silent).run.repl.console.output =
      Bytes.ofAscii "\x7b\"source\":\"+\"\x7d\n" ++
        Bytes.ofAscii "\x7b\"source\":\"-\",\"result\":0\x7d\n" := by
  exact ⟨fun _ _ _ => nofun, by decide, by decide, by decide, by decide⟩

end Accumulator.Proofs.PrintedOutcomes
