import Accumulator.Proofs.Courses
/-!
# What a run says

A loop speaks in separate writes: greeting, prompts, answers to commands, listings, results.  What it
tries to write depends on what it reads and runs, never on what became of an earlier write.  So a run
on another console is the same run, and each console shows a selection of the same texts.
-/

namespace Accumulator.Proofs.Transcript

open Courses Evaluating Repl Turns

/-! ## Utterances -/

inductive Utterance where
  | talk (text : Bytes)
  | listing (text : Bytes)
  | result (text : Bytes)
  deriving DecidableEq, Repr

def Utterance.text : Utterance → Bytes
  | talk text => text
  | listing text => text
  | result text => text

def speak (console : Console) (said : List Utterance) : Console :=
  said.foldl (fun console utterance => console.put utterance.text) console

theorem speak_append (console : Console) (a b : List Utterance) :
    speak console (a ++ b) = speak (speak console a) b :=
  List.foldl_append

def talkLines (lines : List String) : List Utterance :=
  lines.map fun line => .talk (Bytes.line (Bytes.ofAscii line))

theorem speak_talkLines (console : Console) (lines : List String) :
    speak console (talkLines lines) = console.putLines lines := by
  rw [speak, talkLines, List.foldl_map]
  rfl

/-! ## What is said in a turn -/

def greeting (r : Repl) : List Utterance :=
  if r.config.interactive then talkLines welcome else []

def prompt (r : Repl) : List Utterance :=
  if r.config.interactive then [.talk r.config.prompt] else []

def answer (r : Repl) : Command → List Utterance
  | .help => talkLines Command.helpText
  | .quit => talkLines ["Bye!"]
  | .dump => talkLines [if !r.config.showCode then "Code listing on." else "Code listing off."]
  | .stats => [.talk (Bytes.line (counterLine r.engine.counters))]
  | .unknown word =>
      .talk (Bytes.line (Bytes.ofAscii "Unknown command: " ++ word)) ::
        talkLines ["Type :help for available commands."]

def resultText? (format : Format) (source : Bytes) : Verdict → Option Bytes
  | .aborted _ => none
  | .value v => Report.render? { source, value := some v } format
  | .failed f => Report.render? { source, error := f.message } format

def outcome (r : Repl) (source : Bytes) : List Utterance :=
  (if r.config.showCode then [.listing (Program.compile source).listing] else []) ++
    (resultText? r.config.format source (evaluationOf r source).call.verdict).toList.map .result

def farewell (r : Repl) (ended : Bool) : List Utterance :=
  if ended && r.config.interactive then talkLines ["\nBye!"] else []

def complaint (f : Failure) : List Utterance :=
  [.talk (Bytes.line (Bytes.ofAscii "Error reading input: " ++ f.message))]

def saidOnLine (r : Repl) (line : Bytes) (ended : Bool) : List Utterance :=
  if readsCommand r line then
    answer r (Command.ofLine line) ++
      if Command.ofLine line = .quit then [] else farewell r ended
  else if Text.allBlank line then farewell r ended
  else
    outcome r line ++
      if (crashOf r.config.format (evaluationOf r line).call.verdict).isSome then []
      else farewell r ended

def saidOnRead (r : Repl) (read : Read) : List Utterance :=
  match read.failure with
  | none => saidOnLine r (trimLineEnd read.text) false
  | some f => if f.isEnd then saidOnLine r (trimLineEnd read.text) true else complaint f

def said (r : Repl) (read : Read) : List Utterance :=
  prompt r ++ saidOnRead { r with line := r.line + 1 } read

/-! ## Every function on another console -/

theorem ask_onto (r : Repl) (console : Console) :
    { r with console }.ask = { r.ask with console := speak console (prompt r) } := by
  unfold ask prompt
  cases r.config.interactive <;> rfl

theorem greet_onto (r : Repl) (console : Console) :
    { r with console }.greet = { r.greet with console := speak console (greeting r) } := by
  unfold greet greeting
  cases r.config.interactive with
  | false => rfl
  | true =>
      rw [if_pos rfl, if_pos rfl, if_pos rfl, speak_talkLines]
      rfl

theorem obey_onto (r : Repl) (console : Console) (c : Command) :
    { r with console }.obey c =
      ((r.obey c).1, { (r.obey c).2 with console := speak console (answer r c) }) := by
  cases c with
  | help =>
      rw [answer, speak_talkLines]
      rfl
  | quit => rfl
  | dump => rfl
  | stats => rfl
  | unknown word => rfl

theorem console_reported (config : ReplConfig) (console : Console) (report : Report)
    (failure : Option Failure) :
    (reported config console report failure).2 =
      speak console ((report.render? config.format).toList.map .result) := by
  cases hrender : report.render? config.format with
  | none =>
      rw [reported_of_none hrender]
      rfl
  | some text =>
      rw [reported_of_some hrender]
      rfl

theorem console_outcomeOf (r : Repl) (source : Bytes) :
    (outcomeOf r source).2 = speak r.console (outcome r source) := by
  have hlisted : listed r.config r.console source = speak r.console
      (if r.config.showCode then [.listing (Program.compile source).listing] else []) := by
    unfold listed
    cases r.config.showCode <;> rfl
  unfold outcomeOf outcome evaluationOf
  rw [speak_append, hlisted]
  simp only
  cases (r.engine.compileAndRun source).1.verdict with
  | aborted message => rfl
  | value v => exact console_reported _ _ _ _
  | failed f => exact console_reported _ _ _ _

theorem eval_onto (r : Repl) (console : Console) (source : Bytes) :
    ({ r with console }.eval source).2 =
      { (r.eval source).2 with console := speak console (outcome r source) } := by
  rw [eval_eq, eval_eq, console_outcomeOf]
  rfl

theorem obey_stop (r : Repl) (c : Command) :
    (r.obey c).1 = if c = .quit then some .quit else none := by
  cases c <;> rfl

/-! ## A turn on another console -/

/-- `other` is the turn `t` on the given console, up to its failures. -/
def Onto (console : Console) (t other : Turn) : Prop :=
  other.next = t.next ∧ other.repl = { t.repl with console }

theorem endTurn_onto (r : Repl) (console : Console) (ended : Bool) (failures others : List Failure) :
    Onto (speak console (farewell r ended)) (r.endTurn ended failures)
      ({ r with console }.endTurn ended others) := by
  unfold Onto endTurn farewell
  cases ended with
  | false => exact ⟨rfl, rfl⟩
  | true => cases r.config.interactive <;> exact ⟨rfl, rfl⟩

theorem afterCommand_onto (r : Repl) (console : Console) (ended : Bool) (c : Command) :
    Onto (speak console (answer r c ++ if c = .quit then [] else farewell r ended))
      (afterCommand ended (r.obey c)) (afterCommand ended ({ r with console }.obey c)) := by
  have hstop := obey_stop r c
  obtain ⟨showCode, kept, hframe⟩ := obey_frame r c
  rw [obey_onto r console c]
  generalize r.obey c = obeyed at hstop hframe ⊢
  obtain ⟨stop, after⟩ := obeyed
  simp only at hstop hframe ⊢
  by_cases hquit : c = .quit
  · rw [if_pos hquit] at hstop ⊢
    rw [hstop, List.append_nil]
    exact ⟨rfl, rfl⟩
  · rw [if_neg hquit] at hstop ⊢
    have hfarewell : farewell r ended = farewell after ended := by
      rw [hframe]
      rfl
    rw [hstop, speak_append, hfarewell]
    exact endTurn_onto after _ ended [] []

theorem afterEval_onto (r : Repl) (console : Console) (ended : Bool) (source : Bytes) :
    Onto (speak console (outcome r source ++
        if (crashOf r.config.format (evaluationOf r source).call.verdict).isSome then []
        else farewell r ended))
      (afterEval ended (r.eval source)) (afterEval ended ({ r with console }.eval source)) := by
  have hcrash := eval_crashed_iff r source
  have hcrash' := eval_crashed_iff { r with console } source
  have hafter := eval_onto r console source
  have hsame : evaluationOf { r with console } source = evaluationOf r source := rfl
  rw [hsame] at hcrash'
  cases hverdict : crashOf r.config.format (evaluationOf r source).call.verdict with
  | some message =>
      rw [afterEval_of_crashed ((hcrash message).2 hverdict),
        afterEval_of_crashed ((hcrash' message).2 hverdict), Option.isSome_some, if_pos rfl,
        List.append_nil]
      exact ⟨rfl, hafter⟩
  | none =>
      rw [hverdict] at hcrash
      obtain ⟨failures, hfailures⟩ :=
        afterEval_of_returns (fun message h => nomatch (hcrash message).1 h) ended
      obtain ⟨others, hothers⟩ :=
        afterEval_of_returns (fun message h => nomatch hverdict.symm.trans ((hcrash' message).1 h))
          ended
      obtain ⟨engine, kept, evaluations, hframe⟩ := eval_frame r source
      have hfarewell : farewell r ended = farewell (r.eval source).2 ended := by
        rw [hframe]
        rfl
      rw [hfailures, hothers, hafter, Option.isSome_none, if_neg Bool.false_ne_true, speak_append,
        hfarewell]
      exact endTurn_onto _ _ ended failures others

theorem onLine_onto (r : Repl) (console : Console) (line : Bytes) (ended : Bool) :
    Onto (speak console (saidOnLine r line ended)) (r.onLine line ended)
      ({ r with console }.onLine line ended) := by
  have hcommand : readsCommand { r with console } line = readsCommand r line := rfl
  rw [onLine_eq r, onLine_eq { r with console }, hcommand, saidOnLine]
  split
  · exact afterCommand_onto r console ended _
  · split
    · exact endTurn_onto r console ended [] []
    · exact afterEval_onto r console ended line

theorem asked_onto (r : Repl) (console : Console) :
    asked { r with console } = { asked r with console := speak console (prompt r) } := by
  rw [asked, ask_onto]
  rfl

/-- What a turn does, and what it says, does not depend on the console. -/
theorem turn_onto (r : Repl) (console : Console) (failedReads : Nat) (read : Read) :
    Onto (speak console (said r read)) (r.turn failedReads read)
      ({ r with console }.turn failedReads read) := by
  have hline : ∀ (line : Bytes) (ended : Bool),
      saidOnLine { r with line := r.line + 1 } line ended = saidOnLine (asked r) line ended := by
    intro line ended
    rw [asked_eq]
    rfl
  rw [turn_eq r, turn_eq { r with console }, asked_onto r console, said, speak_append, saidOnRead]
  cases read.failure with
  | none =>
      simp only [hline]
      exact onLine_onto (asked r) _ _ false
  | some f =>
      simp only [hline]
      by_cases hend : f.isEnd = true
      · rw [if_pos hend, if_pos hend, if_pos hend]
        exact onLine_onto (asked r) _ _ true
      · rw [if_neg hend, if_neg hend, if_neg hend]
        exact ⟨rfl, rfl⟩

/-! ## Whole runs -/

def spoken (r : Repl) (failedReads : Nat) : List Read → List Utterance
  | [] => said r .atEnd
  | read :: rest =>
      let t := { r with reads := rest }.turn failedReads read
      said r read ++
        match t.next with
        | .goOn n => spoken t.repl n rest
        | _ => []

/-- Everything that a run tries to write, in order. -/
def transcript (r : Repl) : List Utterance :=
  greeting r ++ spoken r.greet 0 r.reads

theorem spoken_of_goOn {r : Repl} {failedReads n : Nat}
    (hgoes : (step r failedReads).next = .goOn n) :
    spoken r failedReads r.reads =
      said r (nextRead r) ++
        spoken (step r failedReads).repl n (step r failedReads).repl.reads := by
  have hne := reads_ne_nil_of_goOn hgoes
  rw [reads_step]
  unfold step nextRead at hgoes ⊢
  cases hreads : r.reads with
  | nil => exact absurd hreads hne
  | cons read rest =>
      rw [hreads] at hgoes
      simp only [List.tail_cons, List.headD_cons] at hgoes ⊢
      rw [spoken]
      simp only [hgoes]

theorem spoken_of_stops {r : Repl} {failedReads : Nat}
    (hstops : ∀ n, (step r failedReads).next ≠ .goOn n) :
    spoken r failedReads r.reads = said r (nextRead r) := by
  unfold step nextRead at hstops
  unfold nextRead
  cases hreads : r.reads with
  | nil => rfl
  | cons read rest =>
      rw [hreads] at hstops
      simp only [List.tail_cons, List.headD_cons] at hstops ⊢
      rw [spoken]
      split
      · exact absurd ‹_› (hstops _)
      · exact List.append_nil _

theorem said_reads (r : Repl) (reads : List Read) (read : Read) :
    said { r with reads } read = said r read := by
  have hline : ∀ line ended, saidOnLine { r with reads, line := r.line + 1 } line ended =
      saidOnLine { r with line := r.line + 1 } line ended := fun _ _ => rfl
  unfold said saidOnRead
  simp only [hline]
  rfl

theorem step_onto (r : Repl) (console : Console) (failedReads : Nat) :
    Onto (speak console (said r (nextRead r))) (step r failedReads)
      (step { r with console } failedReads) := by
  rw [← said_reads r r.reads.tail]
  exact turn_onto { r with reads := r.reads.tail } console failedReads (nextRead r)

theorem course_onto {r : Repl} {failedReads : Nat} {made : List Read} {failures : List Failure}
    {t : Turn} (hcourse : Course r failedReads made failures t) (console : Console) :
    ∃ others other, Course { r with console } failedReads made others other ∧
      Onto (speak console (spoken r failedReads r.reads)) t other := by
  -- The failures are left open: a refused report stands among them in place of what it reported.
  induction hcourse generalizing console with
  | last r failedReads hstops =>
      have hstep := step_onto r console failedReads
      refine ⟨_, _, .last { r with console } failedReads ?_, ?_⟩
      · rw [hstep.1]
        exact hstops
      · rw [spoken_of_stops hstops]
        exact hstep
  | @more r failedReads n made failures t hgoes _ ih =>
      have hstep := step_onto r console failedReads
      obtain ⟨others, other, hother, honto⟩ := ih (speak console (said r (nextRead r)))
      rw [← hstep.2] at hother
      refine ⟨_, other, .more { r with console } (hstep.1.trans hgoes) hother, ?_⟩
      rw [spoken_of_goOn hgoes, speak_append]
      exact honto

theorem run_onto (r : Repl) (console : Console) :
    (Repl.run { r with console }).ending = r.run.ending ∧
      (Repl.run { r with console }).repl =
        { r.run.repl with console := speak console (transcript r) } := by
  obtain ⟨t, hcourse, hending, hrepl⟩ := course_run r
  obtain ⟨others, other, hother, hnext, hafter⟩ :=
    course_onto hcourse (speak console (greeting r))
  rw [← greet_onto r console] at hother
  rw [run_of_course hother, hending, hrepl, hnext, hafter, reads_greet, ← speak_append]
  exact ⟨rfl, rfl⟩

theorem readsMade_onto (r : Repl) (console : Console) :
    readsMade { r with console } = readsMade r := by
  rw [readsMade, readsMade, (run_onto r console).2]

/-! ## What is seen of it -/

theorem writes_put (console : Console) (text : Bytes) :
    ∃ accepted, (console.put text).writes = ⟨text, accepted⟩ :: console.writes := by
  unfold Console.put Console.write
  split
  · exact ⟨false, rfl⟩
  · exact ⟨true, rfl⟩

theorem texts_speak (console : Console) (said : List Utterance) :
    (speak console said).writes.reverse.map Write.text =
      console.writes.reverse.map Write.text ++ said.map Utterance.text := by
  induction said generalizing console with
  | nil => exact (List.append_nil _).symm
  | cons utterance said ih =>
      obtain ⟨accepted, hwrites⟩ := writes_put console utterance.text
      have hspeak : speak console (utterance :: said) =
          speak (console.put utterance.text) said := rfl
      rw [hspeak, ih, hwrites]
      simp

/-- A console shows a selection of what was said, each text whole and in its place. -/
theorem output_speak (console : Console) (said : List Utterance) :
    ∃ kept, List.Sublist kept (said.map Utterance.text) ∧
      (speak console said).output = console.output ++ kept.flatten := by
  induction said generalizing console with
  | nil => exact ⟨[], List.Sublist.refl _, (List.append_nil _).symm⟩
  | cons utterance said ih =>
      obtain ⟨accepted, hwrites⟩ := writes_put console utterance.text
      obtain ⟨kept, hkept, houtput⟩ := ih (console.put utterance.text)
      have hspeak : speak console (utterance :: said) =
          speak (console.put utterance.text) said := rfl
      have hput : (console.put utterance.text).output =
          console.output ++ if accepted then utterance.text else [] := by
        simp [Console.output, hwrites]
      rw [hspeak, houtput, hput, List.map_cons]
      cases accepted with
      | true => exact ⟨utterance.text :: kept, hkept.cons_cons _, by simp⟩
      | false => exact ⟨kept, hkept.cons _, by simp⟩

/-- What a console takes makes no difference to a run.  On any two consoles it makes the same reads,
stops for the same reason, and leaves everything but the console the same, with all that was
evaluated, done on the host and logged; and each console shows a selection of the writes that the run
makes where none is refused. -/
theorem refusals_only_seen_in_output (r : Repl) (c d : Console) :
    let run (console : Console) := Repl.run { r with console }
    let writes := (run { sink := .unlimited }).repl.console.writes.reverse
    readsMade { r with console := c } = readsMade { r with console := d } ∧
    (run c).ending = (run d).ending ∧
    (run c).repl = { (run d).repl with console := (run c).repl.console } ∧
    ∃ kept, List.Sublist kept (writes.map Write.text) ∧
      (run c).repl.console.output = c.output ++ kept.flatten := by
  intro run writes
  obtain ⟨hcending, hcrepl⟩ := run_onto r c
  obtain ⟨hdending, hdrepl⟩ := run_onto r d
  refine ⟨?_, ?_, ?_, ?_⟩
  · rw [readsMade_onto r c, readsMade_onto r d]
  · exact hcending.trans hdending.symm
  · simp only [run, hcrepl, hdrepl]
  · have hwrites : writes.map Write.text = (transcript r).map Utterance.text := by
      simp only [writes, run, (run_onto r { sink := .unlimited }).2]
      exact texts_speak { sink := .unlimited } (transcript r)
    rw [hwrites]
    simp only [run, hcrepl]
    exact output_speak c (transcript r)

end Accumulator.Proofs.Transcript
