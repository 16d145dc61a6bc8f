import Accumulator.Executor.Script
import Accumulator.Proofs.Lines
import Accumulator.Proofs.Transcript
/-!
# Commands are transparent to programs

What an interactive loop evaluates can be told from the lines of its input alone: a command is passed
over, a blank line is, and every other line is run on the engine as it is by then.  So commands that do
not quit can be taken out of an input.  The programs behind them move up by as many lines, and nothing
else about them changes.
-/

namespace Accumulator.Proofs.TransparentCommands

open Courses Evaluating Lines Reading Repl Transcript Turns

/-! ## Texts in lines -/

/-- The lines of a text, each with the newline at its end; the last one may have none. -/
def linesOf (text : Bytes) : List Bytes :=
  (readsOf (segments text)).map Read.text

def readOf (line : Bytes) : Read :=
  ⟨line, if Bytes.newline ∈ line then none else some .endOfInput⟩

inductive Lined : List Bytes → Prop where
  | nil : Lined []
  | last {text : Bytes} (hne : text ≠ []) (htext : OneLine text) : Lined [text]
  | line {text : Bytes} {rest : List Bytes} (htext : OneLine text) (hrest : Lined rest) :
      Lined (Bytes.line text :: rest)

theorem readOf_line (text : Bytes) : readOf (Bytes.line text) = ⟨Bytes.line text, none⟩ := by
  simp [readOf, Bytes.line]

theorem readOf_of_oneLine {text : Bytes} (htext : OneLine text) :
    readOf text = ⟨text, some .endOfInput⟩ := by
  rw [readOf, if_neg htext]

theorem isFailed_readOf (line : Bytes) : isFailed (readOf line) = false := by
  unfold readOf
  split <;> rfl

theorem Lined.reads_flatten {lines : List Bytes} (hlined : Lined lines) :
    readsOf (segments lines.flatten) = lines.map readOf := by
  induction hlined with
  | nil => rfl
  | @last text hne htext =>
      have hsegments : segments [text].flatten = [text] := by
        rw [List.flatten_singleton, segments, List.splitOn_eq_singleton htext]
      rw [hsegments, readsOf, if_neg hne, List.map_singleton, readOf_of_oneLine htext]
  | @line text rest htext _ ih =>
      rw [List.flatten_cons, segments_line_append htext, readsOf_cons _ (segments_ne_nil _), ih,
        List.map_cons, readOf_line]
      rfl

theorem Lined.linesOf_flatten {lines : List Bytes} (hlined : Lined lines) :
    linesOf lines.flatten = lines := by
  rw [linesOf, hlined.reads_flatten, List.map_map]
  exact List.map_id lines

theorem exists_lined (text : Bytes) : ∃ lines, Lined lines ∧ lines.flatten = text := by
  induction text with
  | nil => exact ⟨[], .nil, rfl⟩
  | cons b text ih =>
      obtain ⟨lines, hlined, rfl⟩ := ih
      by_cases hb : b = Bytes.newline
      · subst hb
        exact ⟨Bytes.line [] :: lines, .line List.not_mem_nil hlined, rfl⟩
      · cases hlined with
        | nil =>
            have hone : OneLine [b] := (oneLine_cons b []).2 ⟨hb, List.not_mem_nil⟩
            exact ⟨[[b]], .last (List.cons_ne_nil b []) hone, rfl⟩
        | @last text _ htext =>
            have hone : OneLine (b :: text) := (oneLine_cons b text).2 ⟨hb, htext⟩
            exact ⟨[b :: text], .last (List.cons_ne_nil b text) hone, rfl⟩
        | @line text rest htext hrest =>
            have hone : OneLine (b :: text) := (oneLine_cons b text).2 ⟨hb, htext⟩
            exact ⟨Bytes.line (b :: text) :: rest, .line hone hrest, rfl⟩

theorem lined_linesOf (text : Bytes) : Lined (linesOf text) := by
  obtain ⟨lines, hlined, rfl⟩ := exists_lined text
  rw [hlined.linesOf_flatten]
  exact hlined

theorem linesOf_reads (text : Bytes) : readsOf (segments text) = (linesOf text).map readOf := by
  obtain ⟨lines, hlined, rfl⟩ := exists_lined text
  rw [hlined.linesOf_flatten, hlined.reads_flatten]

theorem Lined.tail {line : Bytes} {rest : List Bytes} (hlined : Lined (line :: rest)) :
    Lined rest := by
  cases hlined with
  | last => exact .nil
  | line _ hrest => exact hrest

theorem Lined.eq_nil_of_isLast {line : Bytes} {rest : List Bytes} (hlined : Lined (line :: rest))
    (hlast : isLast (readOf line) = true) : rest = [] := by
  cases hlined with
  | last => rfl
  | @line text _ _ _ =>
      rw [readOf_line] at hlast
      cases hlast

/-! ## What becomes of some lines -/

def programAt (engine : Engine) (number : Nat) (line : Bytes) : Option Evaluation :=
  if !Command.isCommand line && !Text.allBlank line then
    some ⟨number, line, (engine.compileAndRun line).1⟩
  else none

def asksToQuit (line : Bytes) : Bool :=
  Command.isCommand line && Command.ofLine line == .quit

/-- How a loop ends, the engine it leaves behind, and what it has evaluated, in order. -/
structure Deeds where
  ending : RunEnd
  engine : Engine
  evaluations : List Evaluation

def Deeds.after (new : Option Evaluation) (later : Deeds) : Deeds :=
  { later with evaluations := new.toList ++ later.evaluations }

/-- What an interactive loop does over some lines, the first of which has the given number. -/
def deeds (format : Format) (engine : Engine) (number : Nat) : List Bytes → Deeds
  | [] => ⟨.stopped .inputEnded, engine, []⟩
  | line :: rest =>
      let text := trimLineEnd line
      let new := programAt engine number text
      let next := engineAfter engine new
      Deeds.after new <|
        match crashAfter format new with
        | some message => ⟨.crashed message, next, []⟩
        | none =>
            if asksToQuit text then ⟨.stopped .quit, next, []⟩
            else deeds format next (number + 1) rest

theorem evaluated_readOf {r : Repl} (hinteractive : r.config.interactive = true) (line : Bytes) :
    evaluated r (readOf line) = programAt r.engine (r.line + 1) (trimLineEnd line) := by
  rw [evaluated, isFailed_readOf, isProgram, readsCommand, hinteractive]
  rfl

theorem quits_readOf {r : Repl} (hinteractive : r.config.interactive = true) (line : Bytes) :
    quits r (readOf line) = asksToQuit (trimLineEnd line) := by
  rw [quits, isFailed_readOf, readsCommand, hinteractive]
  rfl

theorem nextAfter_readOf {r : Repl} (hinteractive : r.config.interactive = true)
    (failedReads : Nat) (line : Bytes) :
    nextAfter r failedReads (readOf line) =
      if asksToQuit (trimLineEnd line) then .stop .quit
      else if isLast (readOf line) then .stop .inputEnded
      else .goOn 0 := by
  rw [nextAfter, isFailed_readOf, if_neg Bool.false_ne_true, quits_readOf hinteractive]

theorem nextRead_of_lines {r : Repl} {line : Bytes} {rest : List Bytes}
    (hreads : r.reads = (line :: rest).map readOf) : nextRead r = readOf line := by
  rw [nextRead, hreads]
  rfl

section Course

variable {r : Repl} {failedReads : Nat} {lines : List Bytes}
  (hinteractive : r.config.interactive = true) (hlined : Lined lines)
  (hreads : r.reads = lines.map readOf)
include hinteractive hlined hreads

theorem deeds_of_stops (hstops : ∀ n, (step r failedReads).next ≠ .goOn n) :
    deeds r.config.format r.engine (r.line + 1) lines =
      ⟨endOf (step r failedReads).next, (step r failedReads).repl.engine,
        (evaluated r (nextRead r)).toList⟩ := by
  have hdoes := does_step r failedReads
  rw [hdoes.next] at hstops ⊢
  rw [hdoes.engine]
  cases lines with
  | nil =>
      have hread : nextRead r = readOf [] := by
        rw [nextRead, hreads]
        rfl
      rw [hread, evaluated_readOf hinteractive, nextAfter_readOf hinteractive]
      rfl
  | cons line rest =>
      rw [nextRead_of_lines hreads, evaluated_readOf hinteractive,
        nextAfter_readOf hinteractive] at hstops ⊢
      rw [deeds, Deeds.after]
      generalize programAt r.engine (r.line + 1) (trimLineEnd line) = new at hstops ⊢
      cases hcrash : crashAfter r.config.format new with
      | some message => simp [endOf]
      | none =>
          rw [hcrash, Option.elim_none] at hstops
          by_cases hquit : asksToQuit (trimLineEnd line) = true
          · simp [hquit, endOf]
          · by_cases hlast : isLast (readOf line) = true
            · rw [hlined.eq_nil_of_isLast hlast]
              simp [hquit, hlast, endOf, deeds]
            · simp [hquit, hlast] at hstops

theorem deeds_of_goOn {n : Nat} (hgoes : (step r failedReads).next = .goOn n) :
    ∃ rest, Lined rest ∧ (step r failedReads).repl.reads = rest.map readOf ∧
      deeds r.config.format r.engine (r.line + 1) lines =
        .after (evaluated r (nextRead r))
          (deeds r.config.format (step r failedReads).repl.engine (r.line + 1 + 1) rest) := by
  have hdoes := does_step r failedReads
  have hne := reads_ne_nil_of_goOn hgoes
  cases lines with
  | nil => exact absurd hreads hne
  | cons line rest =>
      refine ⟨rest, hlined.tail, by rw [reads_step, hreads, List.map_cons, List.tail_cons], ?_⟩
      rw [hdoes.next] at hgoes
      rw [hdoes.engine]
      rw [nextRead_of_lines hreads, evaluated_readOf hinteractive] at hgoes ⊢
      rw [nextAfter_readOf hinteractive] at hgoes
      rw [deeds]
      generalize programAt r.engine (r.line + 1) (trimLineEnd line) = new at hgoes ⊢
      cases hcrash : crashAfter r.config.format new with
      | some message => simp [hcrash] at hgoes
      | none =>
          rw [hcrash, Option.elim_none] at hgoes
          by_cases hquit : asksToQuit (trimLineEnd line) = true
          · simp [hquit] at hgoes
          · simp [hquit]

end Course

/-! ## Results -/

def result? : Utterance → Option Bytes
  | .talk _ => none
  | .listing _ => none
  | .result text => some text

def results (said : List Utterance) : List Bytes :=
  said.filterMap result?

def printedFor (format : Format) (ev : Evaluation) : Option Bytes :=
  resultText? format ev.source ev.call.verdict

@[simp] theorem results_append (a b : List Utterance) : results (a ++ b) = results a ++ results b :=
  List.filterMap_append

@[simp] theorem results_talkLines (lines : List String) : results (talkLines lines) = [] := by
  rw [results, talkLines, List.filterMap_map]
  exact List.filterMap_eq_nil_iff.2 fun _ _ => rfl

@[simp] theorem results_greeting (r : Repl) : results (greeting r) = [] := by
  unfold greeting
  split
  · exact results_talkLines _
  · rfl

@[simp] theorem results_prompt (r : Repl) : results (prompt r) = [] := by
  unfold prompt
  split <;> rfl

@[simp] theorem results_answer (r : Repl) (c : Command) : results (answer r c) = [] := by
  cases c with
  | help => exact results_talkLines _
  | quit => rfl
  | dump => rfl
  | stats => rfl
  | unknown word => rfl

@[simp] theorem results_farewell (r : Repl) (ended : Bool) : results (farewell r ended) = [] := by
  unfold farewell
  split <;> rfl

theorem results_outcome (r : Repl) (source : Bytes) :
    results (outcome r source) =
      (printedFor r.config.format (evaluationOf r source)).toList := by
  have hlisting : results (if r.config.showCode then
      [.listing (Program.compile source).listing] else []) = [] := by
    split <;> rfl
  have hresult : ∀ text : Option Bytes, results (text.toList.map .result) = text.toList := by
    intro text
    cases text <;> rfl
  rw [outcome, results_append, hlisting, hresult]
  rfl

theorem results_saidOnLine (r : Repl) (line : Bytes) (ended : Bool) :
    results (saidOnLine r line ended) =
      if isProgram r line then (printedFor r.config.format (evaluationOf r line)).toList else [] := by
  have hif : ∀ (c : Prop) [Decidable c], results (if c then [] else farewell r ended) = [] := by
    intro c _
    split
    · rfl
    · exact results_farewell r ended
  unfold saidOnLine isProgram
  cases readsCommand r line with
  | true => simp [hif]
  | false =>
      cases Text.allBlank line with
      | true => simp
      | false => simp [hif, results_outcome]

theorem results_said (r : Repl) (read : Read) :
    results (said r read) = ((evaluated r read).bind (printedFor r.config.format)).toList := by
  have hline : ∀ ended, results (saidOnLine { r with line := r.line + 1 } (trimLineEnd read.text)
      ended) =
      ((if isProgram r (trimLineEnd read.text) then
          some (evaluationOf { r with line := r.line + 1 } (trimLineEnd read.text))
        else none).bind (printedFor r.config.format)).toList := by
    intro ended
    rw [results_saidOnLine]
    have hprogram : isProgram { r with line := r.line + 1 } (trimLineEnd read.text) =
        isProgram r (trimLineEnd read.text) := rfl
    rw [hprogram]
    split <;> rfl
  rw [said, results_append, results_prompt, List.nil_append, saidOnRead, evaluated, isFailed]
  cases read.failure with
  | none => exact hline false
  | some f =>
      cases hend : f.isEnd with
      | true => simpa [hend] using hline true
      | false =>
          have hcomplaint : results (complaint f) = [] := rfl
          simp [hend, hcomplaint]

/-! ## A run by its lines -/

structure Follows (r : Repl) (failedReads : Nat) (d : Deeds) (failures : List Failure) (t : Turn) :
    Prop where
  ending : endOf t.next = d.ending
  engine : t.repl.engine = d.engine
  evaluations : t.repl.evaluations = d.evaluations.reverse ++ r.evaluations
  failures : failures = d.evaluations.filterMap (returnedBy r.config.format)
  results : results (spoken r failedReads r.reads) =
    d.evaluations.filterMap (printedFor r.config.format)

theorem filterMap_toList {α β : Type} (f : α → Option β) (new : Option α) :
    new.toList.filterMap f = (new.bind f).toList := by
  cases new with
  | none => rfl
  | some a => cases hfa : f a <;> simp [hfa]

theorem isFailed_nextRead {r : Repl} {lines : List Bytes} (hreads : r.reads = lines.map readOf) :
    isFailed (nextRead r) = false := by
  cases lines with
  | nil =>
      rw [nextRead, hreads]
      rfl
  | cons line rest =>
      rw [nextRead_of_lines hreads]
      exact isFailed_readOf line

theorem follows_course {r : Repl} {failedReads : Nat} {made : List Read} {failures : List Failure}
    {t : Turn} (hcourse : Course r failedReads made failures t)
    (hinteractive : r.config.interactive = true) (haccepts : Accepts r.console) {lines : List Bytes}
    (hlined : Lined lines) (hreads : r.reads = lines.map readOf) :
    Follows r failedReads (deeds r.config.format r.engine (r.line + 1) lines) failures t := by
  induction hcourse generalizing lines with
  | last r failedReads hstops =>
      have hdoes := does_step r failedReads
      rw [deeds_of_stops hinteractive hlined hreads hstops]
      refine ⟨rfl, rfl, ?_, ?_, ?_⟩
      · rw [hdoes.evaluations]
        cases evaluated r (nextRead r) <;> rfl
      · rw [hdoes.failures haccepts (isFailed_nextRead hreads), filterMap_toList]
      · rw [spoken_of_stops hstops, results_said, filterMap_toList]
  | @more r failedReads n made failures t hgoes hcourse ih =>
      have hdoes := does_step r failedReads
      have hformat := format_step r failedReads
      obtain ⟨rest, hrest, hreads', hdeeds⟩ :=
        deeds_of_goOn hinteractive hlined hreads hgoes
      have hlater := ih ((interactive_step r failedReads).trans hinteractive)
        (accepts_step haccepts failedReads) hrest hreads'
      rw [hformat, line_step] at hlater
      rw [hdeeds]
      refine ⟨hlater.ending, hlater.engine, ?_, ?_, ?_⟩
      · rw [hlater.evaluations, hdoes.evaluations, Deeds.after]
        cases evaluated r (nextRead r) <;> simp
      · have hfailures := hlater.failures
        rw [hformat] at hfailures
        rw [hdoes.failures haccepts (isFailed_nextRead hreads), hfailures, Deeds.after,
          List.filterMap_append, filterMap_toList]
      · have hresults := hlater.results
        rw [hformat] at hresults
        rw [spoken_of_goOn hgoes, results_append, results_said, hresults, Deeds.after,
          List.filterMap_append, filterMap_toList]

/-- A run comes to the given deeds, returns the failures among them and prints their results. -/
structure Meets (r : Repl) (d : Deeds) : Prop where
  ending : r.run.ending = d.ending
  engine : r.run.repl.engine = d.engine
  evaluations : r.run.repl.evaluations = d.evaluations.reverse ++ r.evaluations
  failures : r.run.failures = d.evaluations.filterMap (returnedBy r.config.format)
  results : results (transcript r) = d.evaluations.filterMap (printedFor r.config.format)

theorem meets_deeds {r : Repl} (hinteractive : r.config.interactive = true)
    (haccepts : Accepts r.console) {lines : List Bytes} (hlined : Lined lines)
    (hreads : r.reads = lines.map readOf) :
    Meets r (deeds r.config.format r.engine (r.line + 1) lines) := by
  obtain ⟨t, hcourse, hending, hrepl⟩ := course_run r
  obtain ⟨console, hgreet⟩ := greet_frame r
  have hstart : Accepts r.greet.console := (keeps_greet r).console.accepts haccepts
  have hfollows := follows_course hcourse (by rw [config_greet, hinteractive]) hstart hlined
    (by rw [reads_greet, hreads])
  have hdeeds : deeds r.greet.config.format r.greet.engine (r.greet.line + 1) lines =
      deeds r.config.format r.engine (r.line + 1) lines := by rw [hgreet]
  rw [hdeeds] at hfollows
  refine ⟨hending.trans hfollows.ending, ?_, ?_, ?_, ?_⟩
  · rw [hrepl, hfollows.engine]
  · rw [hrepl, hfollows.evaluations, hgreet]
  · rw [hfollows.failures, config_greet]
  · rw [transcript, results_append, results_greeting, List.nil_append, ← reads_greet,
      hfollows.results, config_greet]

/-! ## Lines taken out -/

/-- The lines without those at the given places, the first place being `k`. -/
def without (gone : Nat → Bool) : Nat → List Bytes → List Bytes
  | _, [] => []
  | k, line :: rest =>
      if gone k then without gone (k + 1) rest else line :: without gone (k + 1) rest

/-- A command that is none of those for quitting. -/
def Asks (line : Bytes) : Prop :=
  Command.isCommand line = true ∧
    Text.lower (Text.firstWord line) ∉ [":quit", ":q", ":exit"].map Bytes.ofAscii

def goneBefore (gone : Nat → Bool) (k : Nat) : Nat :=
  (List.range k).countP gone

/-- The new number of a line, when `start` lines came before the first one. -/
def renumber (gone : Nat → Bool) (start number : Nat) : Nat :=
  number - goneBefore gone (number - start - 1)

def renumberEvaluation (gone : Nat → Bool) (start : Nat) (ev : Evaluation) : Evaluation :=
  { ev with line := renumber gone start ev.line }

def renumberFailure (gone : Nat → Bool) (start : Nat) : Failure → Failure
  | .program number source cause => .program (renumber gone start number) source cause
  | failure => failure

theorem Lined.without {lines : List Bytes} (hlined : Lined lines) (gone : Nat → Bool) (k : Nat) :
    Lined (without gone k lines) := by
  induction hlined generalizing k with
  | nil => exact .nil
  | last hne htext =>
      unfold TransparentCommands.without
      split
      · exact .nil
      · exact .last hne htext
  | line htext _ ih =>
      unfold TransparentCommands.without
      split
      · exact ih (k + 1)
      · exact .line htext (ih (k + 1))

theorem goneBefore_succ (gone : Nat → Bool) (k : Nat) :
    goneBefore gone (k + 1) = goneBefore gone k + if gone k then 1 else 0 := by
  rw [goneBefore, List.range_succ, List.countP_append, List.countP_singleton]
  rfl

theorem goneBefore_le (gone : Nat → Bool) (k : Nat) : goneBefore gone k ≤ k := by
  have hle : goneBefore gone k ≤ (List.range k).length := List.countP_le_length
  rwa [List.length_range] at hle

theorem renumber_eq (gone : Nat → Bool) (start k : Nat) :
    renumber gone start (start + k + 1) = start + k + 1 - goneBefore gone k := by
  have hplace : start + k + 1 - start - 1 = k := by omega
  rw [renumber, hplace]

theorem asksToQuit_of_asks {line : Bytes} (hasks : Asks line) : asksToQuit line = false := by
  have hquit : Command.ofLine line ≠ .quit := by
    intro hquit
    apply hasks.2
    unfold Command.ofLine at hquit
    simp only at hquit
    split at hquit
    · rename_i entry hfind
      have hmem := List.mem_of_find?_eq_some hfind
      have hword := List.find?_some hfind
      simp only [Command.words, List.mem_cons, List.not_mem_nil, or_false] at hmem
      rcases hmem with rfl | rfl | rfl | rfl
      · cases hquit
      · obtain ⟨w, hw, heq⟩ := List.any_eq_true.1 hword
        exact List.mem_map.2 ⟨w, hw, eq_of_beq heq⟩
      · cases hquit
      · cases hquit
    · cases hquit
  simp [asksToQuit, hquit]

theorem programAt_of_asks {line : Bytes} (hasks : Asks line) (engine : Engine) (number : Nat) :
    programAt engine number line = none := by
  simp [programAt, hasks.1]

theorem deeds_of_asks {line : Bytes} (hasks : Asks (trimLineEnd line)) (format : Format)
    (engine : Engine) (number : Nat) (rest : List Bytes) :
    deeds format engine number (line :: rest) = deeds format engine (number + 1) rest := by
  rw [deeds, programAt_of_asks hasks, asksToQuit_of_asks hasks]
  rfl

def Deeds.renumbered (gone : Nat → Bool) (start : Nat) (d : Deeds) : Deeds :=
  { d with evaluations := d.evaluations.map (renumberEvaluation gone start) }

theorem Deeds.renumbered_after (gone : Nat → Bool) (start : Nat) (new : Option Evaluation)
    (later : Deeds) :
    (Deeds.after new later).renumbered gone start =
      .after (new.map (renumberEvaluation gone start)) (later.renumbered gone start) := by
  cases new <;> rfl

theorem programAt_renumber (gone : Nat → Bool) (start : Nat) (engine : Engine) (number : Nat)
    (line : Bytes) :
    programAt engine (renumber gone start number) line =
      (programAt engine number line).map (renumberEvaluation gone start) := by
  unfold programAt
  split <;> rfl

theorem engineAfter_renumber (gone : Nat → Bool) (start : Nat) (engine : Engine)
    (new : Option Evaluation) :
    engineAfter engine (new.map (renumberEvaluation gone start)) = engineAfter engine new := by
  cases new <;> rfl

theorem crashAfter_renumber (gone : Nat → Bool) (start : Nat) (format : Format)
    (new : Option Evaluation) :
    crashAfter format (new.map (renumberEvaluation gone start)) = crashAfter format new := by
  cases new <;> rfl

theorem deeds_without (format : Format) (gone : Nat → Bool) (start : Nat) (engine : Engine) (k : Nat)
    (lines : List Bytes)
    (hgone : ∀ j line, lines[j]? = some line → gone (k + j) = true → Asks (trimLineEnd line)) :
    deeds format engine (renumber gone start (start + k + 1)) (without gone k lines) =
      (deeds format engine (start + k + 1) lines).renumbered gone start := by
  induction lines generalizing engine k with
  | nil => rfl
  | cons line rest ih =>
      have hrest : ∀ j other, rest[j]? = some other → gone (k + 1 + j) = true →
          Asks (trimLineEnd other) := by
        intro j other hother hj
        exact hgone (j + 1) other hother (by rwa [Nat.add_assoc, Nat.add_comm 1 j] at hj)
      have hle := goneBefore_le gone k
      have hsucc := goneBefore_succ gone k
      have hnext : start + (k + 1) + 1 = start + k + 1 + 1 := by omega
      -- A line that is taken out leaves the new number where it is; any other moves it on.
      unfold without
      by_cases hk : gone k = true
      · have hasks : Asks (trimLineEnd line) := hgone 0 line rfl hk
        have hnumber : renumber gone start (start + k + 1) =
            renumber gone start (start + (k + 1) + 1) := by
          rw [if_pos hk] at hsucc
          rw [renumber_eq, renumber_eq]
          omega
        rw [if_pos hk, deeds_of_asks hasks, hnumber, ih engine (k + 1) hrest, hnext]
      · have hnumber : renumber gone start (start + k + 1) + 1 =
            renumber gone start (start + (k + 1) + 1) := by
          rw [if_neg hk] at hsucc
          rw [renumber_eq, renumber_eq]
          omega
        rw [if_neg hk, deeds, deeds, programAt_renumber]
        simp only [engineAfter_renumber, crashAfter_renumber, Deeds.renumbered_after]
        congr 1
        generalize programAt engine (start + k + 1) (trimLineEnd line) = new
        cases crashAfter format new with
        | some message => rfl
        | none =>
            simp only
            split
            · rfl
            · rw [hnumber, ih _ (k + 1) hrest, hnext]

theorem deeds_without_of_start {gone : Nat → Bool} {lines : List Bytes}
    (hgone : ∀ k line, lines[k]? = some line → gone k = true → Asks (trimLineEnd line))
    {format : Format} {engine : Engine} {start : Nat} :
    deeds format engine (start + 1) (without gone 0 lines) =
      (deeds format engine (start + 1) lines).renumbered gone start := by
  have hplaces : ∀ k line, lines[k]? = some line → gone (0 + k) = true →
      Asks (trimLineEnd line) := by
    intro k line hline hk
    rw [Nat.zero_add] at hk
    exact hgone k line hline hk
  have hwithout := deeds_without format gone start engine 0 lines hplaces
  have hfirst : renumber gone start (start + 0 + 1) = start + 1 := renumber_eq gone start 0
  rw [hfirst] at hwithout
  exact hwithout

theorem isCommand_of_mem_deeds {format : Format} {engine : Engine} {number : Nat}
    {lines : List Bytes} {ev : Evaluation}
    (hev : ev ∈ (deeds format engine number lines).evaluations) :
    Command.isCommand ev.source = false := by
  induction lines generalizing engine number with
  | nil => cases hev
  | cons line rest ih =>
      rw [deeds, Deeds.after] at hev
      rcases List.mem_append.1 hev with hnew | hlater
      · rw [Option.mem_toList, programAt] at hnew
        split at hnew
        · rename_i hprogram
          cases hnew
          simp only [Bool.and_eq_true, Bool.not_eq_true'] at hprogram
          exact hprogram.1
        · cases hnew
      · split at hlater
        · cases hlater
        · split at hlater
          · cases hlater
          · exact ih hlater

theorem returnedBy_renumber (gone : Nat → Bool) (start : Nat) (format : Format) (ev : Evaluation) :
    returnedBy format (renumberEvaluation gone start ev) =
      (returnedBy format ev).map (renumberFailure gone start) := by
  unfold returnedBy endingOf failureOf renumberEvaluation
  simp only
  cases crashOf format ev.call.verdict with
  | some message => rfl
  | none => cases ev.call.verdict <;> rfl

theorem output_of_accepts {console : Console} (haccepts : Accepts console) (said : List Utterance) :
    (speak console said).output = console.output ++ said.flatMap Utterance.text := by
  induction said generalizing console with
  | nil => exact (List.append_nil _).symm
  | cons utterance said ih =>
      have hspeak : speak console (utterance :: said) =
          speak (console.put utterance.text) said := rfl
      have hput : (console.put utterance.text).output = console.output ++ utterance.text := by
        simp [Console.put, Console.write, haccepts console.attempts console.taken, Console.output]
      have hafter : Accepts (console.put utterance.text) :=
        (extends_write console utterance.text).accepts haccepts
      rw [hspeak, ih hafter, hput, List.flatMap_cons, List.append_assoc]

theorem output_run {r : Repl} (haccepts : Accepts r.console) :
    r.run.repl.console.output = r.console.output ++ (transcript r).flatMap Utterance.text := by
  have hrepl : r.run.repl = { r.run.repl with console := speak r.console (transcript r) } :=
    (run_onto r r.console).2
  rw [hrepl]
  exact output_of_accepts haccepts (transcript r)

/-- Commands other than those for quitting can be taken out of the input of an interactive loop, and
the listing switched on or off at its start.  The loop ends the same way, evaluates the same sources
with all that they do on the host, prints the same results for them, leaves the same engine behind and
returns the same failures; only the numbers of the lines are less by the lines taken out before them.
No command is evaluated. -/
theorem commands_transparent (r : Repl) (items others : List Bytes) (gone : Nat → Bool)
    (showCode : Bool) (hinteractive : r.config.interactive = true) (haccepts : Accepts r.console)
    (hitems : ¬ List.replicate Read.idleLimit [] <:+: items)
    (hothers : ¬ List.replicate Read.idleLimit [] <:+: others)
    (hgone : ∀ k line, (linesOf items.flatten)[k]? = some line → gone k = true →
      Asks (trimLineEnd line))
    (hleft : others.flatten = (without gone 0 (linesOf items.flatten)).flatten) :
    let all : Repl := { r with reads := Read.ofItems (items.map .data) }
    let left : Repl :=
      { r with config.showCode := showCode, reads := Read.ofItems (others.map .data) }
    left.run.ending = all.run.ending ∧
    left.run.repl.engine = all.run.repl.engine ∧
    (∃ new, all.run.repl.evaluations = new ++ r.evaluations ∧
      left.run.repl.evaluations = new.map (renumberEvaluation gone r.line) ++ r.evaluations ∧
      (∀ ev ∈ new, Command.isCommand ev.source = false) ∧
      results (transcript all) = new.reverse.filterMap (printedFor r.config.format)) ∧
    results (transcript left) = results (transcript all) ∧
    all.run.repl.console.output =
      r.console.output ++ (transcript all).flatMap Utterance.text ∧
    left.run.repl.console.output =
      r.console.output ++ (transcript left).flatMap Utterance.text ∧
    left.run.failures = all.run.failures.map (renumberFailure gone r.line) ∧
    ∀ failure ∈ all.run.failures, ∃ number source f, failure = .program number source f := by
  intro all left
  have hlined := lined_linesOf items.flatten
  generalize hlines : linesOf items.flatten = lines at hgone hleft hlined
  have hallReads : all.reads = lines.map readOf := by
    rw [← hlines, ← linesOf_reads]
    exact ofItems_data hitems
  have hleftReads : left.reads = (without gone 0 lines).map readOf := by
    rw [← (hlined.without gone 0).reads_flatten, ← hleft]
    exact ofItems_data hothers
  have hall : Meets all (deeds r.config.format r.engine (r.line + 1) lines) :=
    meets_deeds (r := all) hinteractive haccepts hlined hallReads
  have hrest : Meets left (deeds r.config.format r.engine (r.line + 1) (without gone 0 lines)) :=
    meets_deeds (r := left) hinteractive haccepts (hlined.without gone 0) hleftReads
  rw [deeds_without_of_start hgone] at hrest
  refine ⟨hrest.ending.trans hall.ending.symm, hrest.engine.trans hall.engine.symm,
    ⟨_, hall.evaluations, ?_, ?_, ?_⟩, ?_, output_run haccepts, output_run haccepts, ?_, ?_⟩
  · rw [hrest.evaluations, Deeds.renumbered, List.map_reverse]
  · intro ev hev
    exact isCommand_of_mem_deeds (List.mem_reverse.1 hev)
  · rw [hall.results, List.reverse_reverse]
  · rw [hrest.results, hall.results, Deeds.renumbered, List.filterMap_map]
    rfl
  · rw [hrest.failures, hall.failures, Deeds.renumbered, List.filterMap_map, List.map_filterMap]
    exact congrArg (List.filterMap · _) (funext (returnedBy_renumber gone r.line _))
  · intro failure hmem
    rw [hall.failures] at hmem
    obtain ⟨ev, _, hreturned⟩ := List.mem_filterMap.1 hmem
    obtain ⟨f, _, hfailure⟩ := of_returnedBy_eq_some hreturned
    exact ⟨ev.line, ev.source, f, hfailure⟩

/-- Three commands among two programs that fail, in chunks, the last line without a newline.  Two of
them are taken out, and the listing is switched off. -/
theorem commands_transparent_two_taken_out :
    let first : Failure := .plain (Bytes.ofAscii "no memory")
    let second : Failure := .plain (Bytes.ofAscii "!")
    let items := [":help me\n+\n:DU", "mp\n", "", ":stats\r\n*"].map Bytes.ofAscii
    let others := ["+", "\n:stats\r\n*"].map Bytes.ofAscii
    let gone : Nat → Bool := fun k => k == 0 || k == 2
    let r : Repl :=
      { config := { interactive := true, showCode := true }
        engine := .on .native
          (.scripted [{ acquireFailure := first }, { acquireFailure := second }] true
            fun _ => .returned 0)
        reads := []
        console := { sink := .unlimited } }
    let all : Repl := { r with reads := Read.ofItems (items.map .data) }
    let left : Repl :=
      { r with config.showCode := false, reads := Read.ofItems (others.map .data) }
    linesOf items.flatten =
      [":help me\n", "+\n", ":DUmp\n", ":stats\r\n", "*"].map Bytes.ofAscii ∧
    (∀ k line, (linesOf items.flatten)[k]? = some line → gone k = true →
      Asks (trimLineEnd line)) ∧
    others.flatten = (without gone 0 (linesOf items.flatten)).flatten ∧
    all.run.failures =
      [.program 2 (Bytes.ofAscii "+") first, .program 5 (Bytes.ofAscii "*") second] ∧
    left.run.failures =
      [.program 1 (Bytes.ofAscii "+") first, .program 3 (Bytes.ofAscii "*") second] ∧
    results (transcript left) = results (transcript all) := by
  intro first second items others gone r all left
  have hlines : linesOf items.flatten =
      [":help me\n", "+\n", ":DUmp\n", ":stats\r\n", "*"].map Bytes.ofAscii := by decide
  have hgone : ∀ k line, (linesOf items.flatten)[k]? = some line → gone k = true →
      Asks (trimLineEnd line) := by
    intro k line hline hk
    rw [hlines] at hline
    rcases (Bool.or_eq_true_iff.1 hk).imp eq_of_beq eq_of_beq with rfl | rfl
    · cases hline
      exact ⟨by decide, by decide⟩
    · cases hline
      exact ⟨by decide, by decide⟩
  have hothers : others.flatten = (without gone 0 (linesOf items.flatten)).flatten := by decide
  have hfailures : all.run.failures =
      [.program 2 (Bytes.ofAscii "+") first, .program 5 (Bytes.ofAscii "*") second] := by decide
  obtain ⟨_, _, _, hresults, _, _, hleft, _⟩ :=
    commands_transparent r items others gone false rfl (fun _ _ _ => rfl) (by decide) (by decide)
      hgone hothers
  refine ⟨hlines, hgone, hothers, hfailures, ?_, hresults⟩
  rw [hleft]
  exact congrArg (List.map (renumberFailure gone 0)) hfailures

end Accumulator.Proofs.TransparentCommands
