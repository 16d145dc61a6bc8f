import Accumulator.Executor.Script
import Accumulator.Proofs.Turns
/-!
# The failures that a run returns

A program that fails is noted twice: its report goes to the console, and a failure with its line,
its source and its cause goes to the caller of the run.  The second note depends on the first one.
When a line of text is refused, the refusal takes the place of the program's failure, and when an object
is, what the encoder answers to the refusal does.
-/

namespace Accumulator.Proofs.ReturnedFailures

open Evaluating Repl Turns

structure Refused (console : Console) (text : Bytes) (refusal : Failure) : Prop where
  tried : ⟨text, false⟩ ∈ console.writes
  answered : ∃ attempts taken, console.sink attempts taken text = some refusal

theorem Refused.mono {before after : Console} {text : Bytes} {refusal : Failure}
    (hrefused : Refused before text refusal) (hextends : Extends before after) :
    Refused after text refusal where
  tried := hextends.writes.mem hrefused.tried
  answered := by
    rw [hextends.sink]
    exact hrefused.answered

theorem refused_write {c : Console} {text : Bytes} {refusal : Failure}
    (hwrite : (c.write text).1 = some refusal) : Refused (c.write text).2 text refusal := by
  unfold Console.write at hwrite ⊢
  cases hsink : c.sink c.attempts c.taken text with
  | none =>
      rw [hsink] at hwrite
      cases hwrite
  | some f =>
      rw [hsink] at hwrite
      cases hwrite
      exact ⟨List.mem_cons_self, c.attempts, c.taken, hsink⟩

def errorObject (source : Bytes) (f : Failure) : Bytes :=
  Report.json { source, error := f.message }

/-- If the program failed, its failure is among `failures`, or else what came back when the report of
it was refused. -/
def Returned (format : Format) (encoder : Encoder) (console : Console) (failures : List Failure)
    (ev : Evaluation) : Prop :=
  ∀ f, ev.call.verdict = .failed f →
    .program ev.line ev.source f ∈ failures ∨
    (format = .text ∧ ∃ refusal ∈ failures, Refused console (errorLine f) refusal) ∨
    (format = .json ∧ ∃ refusal, Refused console (errorObject ev.source f) refusal ∧
      ∃ answer ∈ failures, encoder refusal = some answer)

theorem lasts_returned (format : Format) (encoder : Encoder) : Lasts (Returned format encoder) := by
  intro before after failures more ev hreturned hextends hmore f hverdict
  rcases hreturned f hverdict with hprogram | ⟨hformat, refusal, hmem, hrefused⟩ |
    ⟨hformat, refusal, hrefused, answer, hmem, hanswer⟩
  · exact .inl (hmore hprogram)
  · exact .inr (.inl ⟨hformat, refusal, hmore hmem, hrefused.mono hextends⟩)
  · exact .inr (.inr ⟨hformat, refusal, hrefused.mono hextends, answer, hmore hmem, hanswer⟩)

/-! ## One program -/

theorem eq_errorLine {source text : Bytes} {f : Failure}
    (hrender : Report.render? { source, error := f.message } .text = some text) :
    text = errorLine f := by
  rw [render?_text_failed] at hrender
  by_cases hmessage : f.message ≠ []
  · rw [if_pos hmessage] at hrender
    exact (Option.some.inj hrender).symm
  · rw [if_neg hmessage] at hrender
    cases hrender

theorem returned_eval {r : Repl} {source : Bytes} {failure : Option Failure}
    (hfinished : (r.eval source).1 = .finished failure) :
    Returned r.config.format r.config.encoder (r.eval source).2.console failure.toList
      ⟨r.line, source, (r.engine.compileAndRun source).1⟩ := by
  intro f hverdict
  simp only at hverdict
  rw [eval_eq] at hfinished ⊢
  simp only [outcomeOf, hverdict] at hfinished ⊢
  cases hrender : Report.render? { source, error := f.message } r.config.format with
  | none =>
      rw [reported_of_none hrender] at hfinished
      cases hfinished
  | some text =>
      rw [reported_of_some hrender] at hfinished ⊢
      cases hfinished
      generalize listed r.config r.console source = console
      cases hwrite : (console.write text).1 with
      | none => exact .inl (by simp [returned])
      | some refusal =>
          have hrefused := refused_write hwrite
          cases hformat : r.config.format with
          | text =>
              rw [hformat] at hrender
              rw [eq_errorLine hrender] at hrefused ⊢
              refine .inr (.inl ⟨rfl, refusal, ?_, hrefused⟩)
              simp [returned, ReplConfig.answer, hformat]
          | json =>
              rw [hformat] at hrender
              cases hrender
              cases hanswer : r.config.encoder refusal with
              | none => exact .inl (by simp [returned, ReplConfig.answer, hformat, hanswer])
              | some answer =>
                  refine .inr (.inr ⟨rfl, refusal, hrefused, answer, ?_, hanswer⟩)
                  simp [returned, ReplConfig.answer, hformat, hanswer]

/-! ## Runs -/

def AllReturned (start r : Repl) (failures : List Failure) : Prop :=
  EachSince start (Returned start.config.format start.config.encoder) r failures

theorem AllReturned.turn {start r : Repl} {failures : List Failure}
    (hall : AllReturned start r failures) {failedReads : Nat} {read : Read}
    (hgoes : ∀ message, (r.turn failedReads read).next ≠ .crash message) :
    AllReturned start (r.turn failedReads read).repl
      (failures ++ (r.turn failedReads read).failures) := by
  refine EachSince.turn (lasts_returned _ _) hall ?_ hgoes
  intro source failure hfinished
  rw [← hall.format, ← hall.encoder, ← (keeps_asked r).format, ← (keeps_asked r).encoder]
  exact returned_eval hfinished

/-- When a run returns, every program that failed in it has come back: as a failure with its line, its
source and its cause, or, if the line of text that was to report it was refused, as that refusal, or,
if an object was, as what the encoder answers to that refusal.  With an encoder that never answers,
every program that fails comes back as itself unless a line of text was refused. -/
theorem failed_programs_returned (r : Repl) (reason : Stop)
    (hreturns : r.run.ending = .stopped reason) :
    ∃ new, r.run.repl.evaluations = new ++ r.evaluations ∧
      ∀ ev ∈ new, ∀ f, ev.call.verdict = .failed f →
        (.program ev.line ev.source f ∈ r.run.failures ∨
          (r.config.format = .text ∧
            ∃ refusal ∈ r.run.failures, Refused r.run.repl.console (errorLine f) refusal) ∨
          (r.config.format = .json ∧
            ∃ refusal, Refused r.run.repl.console (errorObject ev.source f) refusal ∧
              ∃ answer ∈ r.run.failures, r.config.encoder refusal = some answer)) ∧
        (r.config.encoder = .heedless →
          .program ev.line ev.source f ∈ r.run.failures ∨
          (r.config.format = .text ∧
            ∃ refusal ∈ r.run.failures, Refused r.run.repl.console (errorLine f) refusal)) := by
  have hstart : AllReturned r r.greet [] := eachSince_greet (lasts_returned _ _)
  have hends : Ends (AllReturned r) r.run :=
    ends_run (fun _ _ _ hall => ⟨hall.format, hall.encoder, hall.each⟩)
      (fun _ _ _ _ hall hgoes => hall.turn hgoes) hstart
  cases hends with
  | stopped _ _ hall =>
      obtain ⟨new, hnew, heach⟩ := hall.each
      refine ⟨new, hnew, ?_⟩
      intro ev hev f hverdict
      have hreturned := heach ev hev f hverdict
      refine ⟨hreturned, ?_⟩
      intro hheedless
      rcases hreturned with hprogram | hrefused | ⟨_, refusal, _, answer, _, hanswer⟩
      · exact .inl hprogram
      · exact .inr hrefused
      · rw [hheedless] at hanswer
        cases hanswer
  | crashed message hcrashed =>
      rw [hreturns] at hcrashed
      cases hcrashed

/-- Two programs that fail on a console that takes nine bytes.  The first report is too long for it,
the second one fits. -/
theorem failed_programs_returned_one_refused :
    let first : Failure := .plain (Bytes.ofAscii "no memory")
    let second : Failure := .plain (Bytes.ofAscii "!")
    let r : Repl :=
      { config := { interactive := false }
        engine := .on .native
          (.scripted [{ acquireFailure := first }, { acquireFailure := second }] true
            fun _ => .returned 0)
        reads := Read.ofItems [.data (Bytes.ofAscii "+\n-\n")]
        console := { sink := .limited 9 } }
    r.run.ending = .stopped .inputEnded ∧
    r.run.failures =
      [.plain (Bytes.ofAscii "write refused"), .program 2 (Bytes.ofAscii "-") second] ∧
    ∃ new, r.run.repl.evaluations = new ++ r.evaluations ∧
      ∀ ev ∈ new, ∀ f, ev.call.verdict = .failed f →
        .program ev.line ev.source f ∈ r.run.failures ∨
        (r.config.format = .text ∧
          ∃ refusal ∈ r.run.failures, Refused r.run.repl.console (errorLine f) refusal) := by
  intro first second r
  obtain ⟨new, hnew, heach⟩ := failed_programs_returned r .inputEnded (by decide)
  exact ⟨by decide, by decide, new, hnew, fun ev hev f hverdict => (heach ev hev f hverdict).2 rfl⟩

/-- A program that fails on a console that takes nothing: the run returns, and what it returns says
neither that the program failed nor why. -/
theorem refusal_hides_failure :
    let f : Failure := .plain (Bytes.ofAscii "no memory")
    let r : Repl :=
      { config := { interactive := false }
        engine := .on .native (.scripted [{ acquireFailure := f }] true fun _ => .returned 0)
        reads := Read.ofItems [.data (Bytes.ofAscii "+\n")]
        console := { sink := .limited 0 } }
    r.run.ending = .stopped .inputEnded ∧
    (∃ ev ∈ r.run.repl.evaluations, ev.line = 1 ∧ ev.source = Bytes.ofAscii "+" ∧
      ev.call.verdict = .failed f) ∧
    .program 1 (Bytes.ofAscii "+") f ∉ r.run.failures := by
  decide

end Accumulator.Proofs.ReturnedFailures
