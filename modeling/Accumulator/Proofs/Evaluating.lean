import Accumulator.Repl.Eval
/-!
# What one evaluation does

An evaluation lists its source, runs it and reports the outcome.  `eval_eq` says which parts of the
loop it looks at and which it changes; the input, the settings and the line number stay as they are.
-/

namespace Accumulator.Proofs.Evaluating

def listed (config : ReplConfig) (console : Console) (source : Bytes) : Console :=
  if config.showCode then console.put (Program.compile source).listing else console

def returned (config : ReplConfig) (refusal failure : Option Failure) : Option Failure :=
  (refusal.bind config.answer).or failure

def reported (config : ReplConfig) (console : Console) (report : Report)
    (failure : Option Failure) : EvalEnd × Console :=
  match report.render? config.format with
  | none => (.crashed none, console)
  | some text =>
      (.finished (returned config (console.write text).1 failure), (console.write text).2)

theorem reported_of_some {config : ReplConfig} {console : Console} {report : Report} {text : Bytes}
    (hrender : report.render? config.format = some text) (failure : Option Failure) :
    reported config console report failure =
      (.finished (returned config (console.write text).1 failure), (console.write text).2) := by
  unfold reported
  rw [hrender]

theorem reported_of_none {config : ReplConfig} {console : Console} {report : Report}
    (hrender : report.render? config.format = none) (failure : Option Failure) :
    reported config console report failure = (.crashed none, console) := by
  unfold reported
  rw [hrender]

def errorLine (f : Failure) : Bytes :=
  Bytes.line (Bytes.ofAscii "error: " ++ f.message)

theorem render?_text_failed (source : Bytes) (f : Failure) :
    Report.render? { source, error := f.message } .text =
      if f.message ≠ [] then some (errorLine f) else none :=
  rfl

def outcomeOf (r : Repl) (source : Bytes) : EvalEnd × Console :=
  let console := listed r.config r.console source
  match (r.engine.compileAndRun source).1.verdict with
  | .aborted message => (.crashed (some message), console)
  | .value v => reported r.config console { source, value := some v } none
  | .failed f =>
      reported r.config console { source, error := f.message } (some (.program r.line source f))

theorem report_eq (r : Repl) (report : Report) (failure : Option Failure) :
    r.report report failure =
      ((reported r.config r.console report failure).1,
        { r with console := (reported r.config r.console report failure).2 }) := by
  unfold Repl.report reported
  cases report.render? r.config.format <;> rfl

theorem eval_eq (r : Repl) (source : Bytes) :
    r.eval source =
      ((outcomeOf r source).1,
        { r with
          engine := (r.engine.compileAndRun source).2
          console := (outcomeOf r source).2
          evaluations := ⟨r.line, source, (r.engine.compileAndRun source).1⟩ :: r.evaluations }) := by
  have hlisted : (if r.config.showCode then r.put (Program.compile source).listing else r) =
      { r with console := listed r.config r.console source } := by
    unfold listed
    cases r.config.showCode <;> rfl
  have hrun : r.engine.run (Program.compile source).code = r.engine.compileAndRun source := rfl
  unfold Repl.eval outcomeOf
  simp only [hlisted, hrun]
  cases (r.engine.compileAndRun source).1.verdict with
  | aborted message => rfl
  | value v => simp only [report_eq]
  | failed f => simp only [report_eq]

theorem eval_frame (r : Repl) (source : Bytes) :
    ∃ (engine : Engine) (console : Console) (evaluations : List Evaluation),
      (r.eval source).2 = { r with engine, console, evaluations } := by
  rw [eval_eq]
  exact ⟨_, _, _, rfl⟩

/-! ## Crashes -/

def evaluationOf (r : Repl) (source : Bytes) : Evaluation :=
  ⟨r.line, source, (r.engine.compileAndRun source).1⟩

/-- The crash that a verdict leads to: that of the called code, or that of a report without a text. -/
def crashOf (format : Format) : Verdict → Option (Option Bytes)
  | .aborted message => some (some message)
  | .value _ => none
  | .failed f => if format = .text ∧ f.message = [] then some none else none

theorem crashed_reported_iff (config : ReplConfig) (console : Console) (report : Report)
    (failure : Option Failure) (message : Option Bytes) :
    (reported config console report failure).1 = .crashed message ↔
      report.render? config.format = none ∧ message = none := by
  cases hrender : report.render? config.format with
  | none =>
      rw [reported_of_none hrender]
      simp [eq_comm]
  | some text =>
      rw [reported_of_some hrender]
      simp

/-- Whether a program crashes the loop has nothing to do with the console. -/
theorem eval_crashed_iff (r : Repl) (source : Bytes) (message : Option Bytes) :
    (r.eval source).1 = .crashed message ↔
      crashOf r.config.format (evaluationOf r source).call.verdict = some message := by
  rw [eval_eq, outcomeOf, evaluationOf]
  simp only
  cases (r.engine.compileAndRun source).1.verdict with
  | aborted other => simp [crashOf]
  | value v =>
      rw [crashed_reported_iff]
      cases r.config.format <;> simp [crashOf, Report.render?, Report.text?]
  | failed f =>
      rw [crashed_reported_iff]
      cases r.config.format with
      | json => simp [crashOf, Report.render?]
      | text =>
          rw [render?_text_failed]
          by_cases hmessage : f.message = []
          · simp [crashOf, hmessage, eq_comm]
          · simp [crashOf, hmessage]

/-! ## Consoles that accept everything -/

def Accepts (console : Console) : Prop :=
  ∀ attempts taken text, console.sink attempts taken text = none

theorem write_of_accepts {console : Console} (haccepts : Accepts console) (text : Bytes) :
    (console.write text).1 = none := by
  simp [Console.write, haccepts console.attempts console.taken text]

def failureOf (ev : Evaluation) : Option Failure :=
  match ev.call.verdict with
  | .failed f => some (.program ev.line ev.source f)
  | _ => none

/-- How an evaluation ends if its report is not refused. -/
def endingOf (format : Format) (ev : Evaluation) : EvalEnd :=
  match crashOf format ev.call.verdict with
  | some message => .crashed message
  | none => .finished (failureOf ev)

def returnedBy (format : Format) (ev : Evaluation) : Option Failure :=
  match endingOf format ev with
  | .crashed _ => none
  | .finished failure => failure

theorem of_returnedBy_eq_some {format : Format} {ev : Evaluation} {failure : Failure}
    (hreturned : returnedBy format ev = some failure) :
    ∃ f, ev.call.verdict = .failed f ∧ failure = .program ev.line ev.source f := by
  have hfailure : failureOf ev = some failure := by
    unfold returnedBy endingOf at hreturned
    cases hcrash : crashOf format ev.call.verdict with
    | some message => simp [hcrash] at hreturned
    | none => simpa [hcrash] using hreturned
  unfold failureOf at hfailure
  cases hverdict : ev.call.verdict with
  | failed f => exact ⟨f, rfl, by simpa [hverdict, eq_comm] using hfailure⟩
  | value v => simp [hverdict] at hfailure
  | aborted message => simp [hverdict] at hfailure

theorem reported_of_accepts {console : Console} (haccepts : Accepts console) (config : ReplConfig)
    (report : Report) (failure : Option Failure) :
    (reported config console report failure).1 =
      if (report.render? config.format).isSome then .finished failure else .crashed none := by
  cases hrender : report.render? config.format with
  | none =>
      rw [reported_of_none hrender]
      rfl
  | some text =>
      rw [reported_of_some hrender, write_of_accepts haccepts]
      rfl

def unread (r : Repl) : Repl :=
  { r with reads := [] }

theorem eval_unread (r : Repl) (source : Bytes) :
    (unread r).eval source = ((r.eval source).1, unread (r.eval source).2) := by
  rw [eval_eq, eval_eq]
  rfl

end Accumulator.Proofs.Evaluating
