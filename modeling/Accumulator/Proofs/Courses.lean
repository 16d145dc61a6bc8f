import Accumulator.Proofs.Turns
/-!
# The course of a run

A run makes one read after the other until a turn does not go on.  What comes after a read depends on
the read alone, unless a program crashes: failed reads are counted, a line may tell the loop to quit,
and the end of the input ends it.  A course is a run taken apart into its reads.
-/

namespace Accumulator.Proofs.Courses

open Evaluating Repl Turns

/-! ## What comes after a read -/

/-- The read was cut short by a failure that is not the end of the input. -/
def isFailed (read : Read) : Bool :=
  read.failure.any fun f => !f.isEnd

def isLast (read : Read) : Bool :=
  read.failure.any Failure.isEnd

def quits (r : Repl) (read : Read) : Bool :=
  !isFailed read && readsCommand r (trimLineEnd read.text) &&
    Command.ofLine (trimLineEnd read.text) == .quit

/-- What comes after a read, if no program crashes. -/
def nextAfter (r : Repl) (failedReads : Nat) (read : Read) : Next :=
  if isFailed read then
    if readFailureLimit ≤ failedReads + 1 then .stop .readsFailed else .goOn (failedReads + 1)
  else if quits r read then .stop .quit
  else if isLast read then .stop .inputEnded
  else .goOn 0

theorem isFailed_of_handsOver {read : Read} {ended : Bool} (hover : HandsOver read ended) :
    isFailed read = false := by
  unfold HandsOver at hover
  unfold isFailed
  cases hfailure : read.failure with
  | none => rfl
  | some f =>
      rw [hfailure] at hover
      simp [hover.1]

theorem isLast_of_handsOver {read : Read} {ended : Bool} (hover : HandsOver read ended) :
    isLast read = ended := by
  unfold HandsOver at hover
  unfold isLast
  cases hfailure : read.failure with
  | none =>
      rw [hfailure] at hover
      exact hover.symm
  | some f =>
      rw [hfailure] at hover
      simp [hover.1, hover.2]

theorem isFailed_of_failure {read : Read} {f : Failure} (hread : read.failure = some f)
    (hend : f.isEnd = false) : isFailed read = true := by
  simp [isFailed, hread, hend]

theorem exists_failure_of_isFailed {read : Read} (hread : isFailed read = true) :
    ∃ f, read.failure = some f ∧ f.isEnd = false := by
  unfold isFailed at hread
  cases hfailure : read.failure with
  | none =>
      rw [hfailure] at hread
      cases hread
  | some f =>
      rw [hfailure] at hread
      exact ⟨f, rfl, by simpa using hread⟩

theorem isFailed_of_isLast {read : Read} (hlast : isLast read = true) : isFailed read = false := by
  unfold isLast at hlast
  unfold isFailed
  cases hfailure : read.failure with
  | none => rfl
  | some f =>
      rw [hfailure] at hlast
      simpa using hlast

theorem nextAfter_of_handsOver {r : Repl} {read : Read} {ended : Bool} (hover : HandsOver read ended)
    (failedReads : Nat) :
    nextAfter r failedReads read =
      if quits r read then .stop .quit else if ended then .stop .inputEnded else .goOn 0 := by
  rw [nextAfter, isFailed_of_handsOver hover, if_neg Bool.false_ne_true, isLast_of_handsOver hover]

theorem quits_of_program {r : Repl} {read : Read}
    (hcommand : readsCommand r (trimLineEnd read.text) = false) : quits r read = false := by
  simp [quits, hcommand]

theorem quits_of_command {r : Repl} {read : Read} {ended : Bool} (hover : HandsOver read ended)
    (hcommand : readsCommand r (trimLineEnd read.text) = true) :
    quits r read = (Command.ofLine (trimLineEnd read.text) == .quit) := by
  simp [quits, hcommand, isFailed_of_handsOver hover]

theorem next_endTurn (r : Repl) (ended : Bool) (failures : List Failure) :
    (r.endTurn ended failures).next = if ended then .stop .inputEnded else .goOn 0 := by
  cases ended <;> rfl

theorem next_afterCommand (r : Repl) (ended : Bool) (c : Command) :
    (afterCommand ended (r.obey c)).next =
      if c == .quit then .stop .quit else if ended then .stop .inputEnded else .goOn 0 := by
  cases c with
  | quit => rfl
  | help => exact next_endTurn _ ended []
  | dump => exact next_endTurn _ ended []
  | stats => exact next_endTurn _ ended []
  | unknown word => exact next_endTurn _ ended []

/-! ## What a turn evaluates -/

/-- A line that is run: neither a command of an interactive loop nor blank. -/
def isProgram (r : Repl) (line : Bytes) : Bool :=
  !readsCommand r line && !Text.allBlank line

def evaluated (r : Repl) (read : Read) : Option Evaluation :=
  if !isFailed read && isProgram r (trimLineEnd read.text) then
    some (evaluationOf { r with line := r.line + 1 } (trimLineEnd read.text))
  else none

def crashAfter (format : Format) (new : Option Evaluation) : Option (Option Bytes) :=
  new.bind fun ev => crashOf format ev.call.verdict

def engineAfter (engine : Engine) : Option Evaluation → Engine
  | none => engine
  | some ev => (engine.compileAndRun ev.source).2

structure Does (r : Repl) (failedReads : Nat) (read : Read) (t : Turn) : Prop where
  next : t.next =
    (crashAfter r.config.format (evaluated r read)).elim (nextAfter r failedReads read) .crash
  engine : t.repl.engine = engineAfter r.engine (evaluated r read)
  evaluations : t.repl.evaluations = (evaluated r read).toList ++ r.evaluations
  readFailed : ∀ f, read.failure = some f → f.isEnd = false →
    t.failures = [.reading (r.line + 1) f]
  failures : Accepts r.console → isFailed read = false →
    t.failures = ((evaluated r read).bind (returnedBy r.config.format)).toList

theorem isProgram_nil (r : Repl) : isProgram r [] = false := by
  have hblank : Text.allBlank [] = true := rfl
  rw [isProgram, hblank, Bool.not_true, Bool.and_false]

theorem evaluated_eq_some {r : Repl} {read : Read} {ev : Evaluation}
    (hnew : evaluated r read = some ev) :
    ev = evaluationOf { r with line := r.line + 1 } (trimLineEnd read.text) := by
  unfold evaluated at hnew
  split at hnew
  · exact (Option.some.inj hnew).symm
  · cases hnew

theorem Does.of_keeps {r : Repl} {failedReads : Nat} {read : Read} {ended : Bool} {t : Turn}
    (hover : HandsOver read ended) (hprogram : isProgram r (trimLineEnd read.text) = false)
    (hnext : t.next = nextAfter r failedReads read) (hkeeps : Keeps r t.repl)
    (hfailures : t.failures = []) : Does r failedReads read t := by
  have hhanded := isFailed_of_handsOver hover
  have hnone : evaluated r read = none := by simp [evaluated, hprogram]
  refine ⟨?_, ?_, ?_, ?_, ?_⟩
  · rw [hnone, hnext]
    rfl
  · rw [hnone, hkeeps.engine]
    rfl
  · rw [hnone, hkeeps.evaluations]
    rfl
  · intro f hread hend
    rw [isFailed_of_failure hread hend] at hhanded
    cases hhanded
  · intro _ _
    rw [hnone, hfailures]
    rfl

theorem does_afterEval {r : Repl} {read : Read} {ended : Bool} (failedReads : Nat)
    (hover : HandsOver read ended) (hcommand : readsCommand r (trimLineEnd read.text) = false)
    (hblank : Text.allBlank (trimLineEnd read.text) = false) :
    Does r failedReads read (afterEval ended ((asked r).eval (trimLineEnd read.text))) := by
  have hhanded := isFailed_of_handsOver hover
  have hprogram : isProgram r (trimLineEnd read.text) = true := by
    rw [isProgram, hcommand, hblank]
    rfl
  have hasked := keeps_asked r
  have hkeeps := keeps_afterEval ended ((asked r).eval (trimLineEnd read.text))
  have hnew : evaluated r read = some (evaluationOf (asked r) (trimLineEnd read.text)) := by
    rw [evaluated, hhanded, hprogram, asked_eq]
    rfl
  refine ⟨?_, ?_, ?_, ?_, ?_⟩
  · have hcrash := eval_crashed_iff (asked r) (trimLineEnd read.text)
    rw [hasked.format] at hcrash
    rw [hnew, nextAfter_of_handsOver hover, quits_of_program hcommand, crashAfter,
      Option.bind_some]
    cases hverdict : crashOf r.config.format
        (evaluationOf (asked r) (trimLineEnd read.text)).call.verdict with
    | some message =>
        rw [afterEval_of_crashed ((hcrash message).2 hverdict)]
        rfl
    | none =>
        rw [hverdict] at hcrash
        obtain ⟨failures, hreturns⟩ :=
          afterEval_of_returns (fun message h => nomatch (hcrash message).1 h) ended
        rw [hreturns, next_endTurn]
        rfl
  · rw [hnew, hkeeps.engine, eval_eq, hasked.engine]
    rfl
  · rw [hnew, hkeeps.evaluations, eval_eq, ← hasked.evaluations]
    rfl
  · intro f hread hend
    rw [isFailed_of_failure hread hend] at hhanded
    cases hhanded
  · intro haccepts _
    have heval := eval_of_accepts (hasked.console.accepts haccepts) (trimLineEnd read.text)
    rw [hasked.format] at heval
    rw [hnew, Option.bind_some, returnedBy, ← heval]
    generalize (asked r).eval (trimLineEnd read.text) = evaluated
    obtain ⟨ending, after⟩ := evaluated
    cases ending with
    | crashed message => rfl
    | finished failure => exact failures_endTurn after ended failure.toList

theorem does_turn (r : Repl) (failedReads : Nat) (read : Read) :
    Does r failedReads read (r.turn failedReads read) := by
  have hasked := keeps_asked r
  have hway := way_turn r failedReads read
  generalize r.turn failedReads read = t at hway ⊢
  cases hway with
  | failedRead f hread hend =>
      have hfailed := isFailed_of_failure hread hend
      have hnone : evaluated r read = none := by simp [evaluated, hfailed]
      refine ⟨?_, ?_, ?_, ?_, ?_⟩
      · rw [hnone, nextAfter, hfailed, if_pos rfl]
        rfl
      · rw [hnone, ← hasked.engine]
        rfl
      · rw [hnone, ← hasked.evaluations]
        rfl
      · intro g hg _
        rw [hread] at hg
        cases hg
        rfl
      · intro _ hnot
        rw [hfailed] at hnot
        cases hnot
  | command ended hover hcommand =>
      apply Does.of_keeps hover
      · simp [isProgram, hcommand]
      · rw [nextAfter_of_handsOver hover, quits_of_command hover hcommand]
        exact next_afterCommand _ ended _
      · exact hasked.trans ((keeps_obey _ _).trans (keeps_afterCommand ended _))
      · exact failures_afterCommand ended _
  | blank ended hover hcommand hblank =>
      apply Does.of_keeps hover
      · simp [isProgram, hblank]
      · rw [nextAfter_of_handsOver hover, quits_of_program hcommand]
        exact next_endTurn _ ended []
      · exact hasked.trans (keeps_endTurn _ ended [])
      · exact failures_endTurn _ ended []
  | program ended hover hcommand hblank => exact does_afterEval failedReads hover hcommand hblank

theorem next_turn (r : Repl) (failedReads : Nat) (read : Read) :
    (r.turn failedReads read).next = nextAfter r failedReads read ∨
      ∃ message, (r.turn failedReads read).next = .crash message := by
  rw [(does_turn r failedReads read).next]
  cases crashAfter r.config.format (evaluated r read) with
  | none => exact .inl rfl
  | some message => exact .inr ⟨message, rfl⟩

theorem nextAfter_of_goOn {r : Repl} {failedReads n : Nat} {read : Read}
    (hgoes : (r.turn failedReads read).next = .goOn n) :
    nextAfter r failedReads read = .goOn n := by
  rcases next_turn r failedReads read with hnext | ⟨message, hcrash⟩
  · rw [← hnext, hgoes]
  · rw [hgoes] at hcrash
    cases hcrash

theorem isLast_of_goOn {r : Repl} {failedReads n : Nat} {read : Read}
    (hgoes : nextAfter r failedReads read = .goOn n) : isLast read = false := by
  cases hlast : isLast read with
  | false => rfl
  | true =>
      rw [nextAfter, isFailed_of_isLast hlast, hlast] at hgoes
      by_cases hquits : quits r read = true
      · simp [hquits] at hgoes
      · simp [hquits] at hgoes

theorem isLast_of_inputEnded {r : Repl} {failedReads : Nat} {read : Read}
    (hends : nextAfter r failedReads read = .stop .inputEnded) : isLast read = true := by
  cases hlast : isLast read with
  | true => rfl
  | false =>
      rw [nextAfter, hlast] at hends
      split at hends
      · split at hends <;> cases hends
      · split at hends <;> cases hends

/-! ## What every turn leaves alone -/

theorem obey_frame (r : Repl) (c : Command) :
    ∃ (showCode : Bool) (console : Console),
      (r.obey c).2 = { r with config.showCode := showCode, console } := by
  cases c with
  | help => exact ⟨r.config.showCode, _, rfl⟩
  | quit => exact ⟨r.config.showCode, _, rfl⟩
  | dump => exact ⟨!r.config.showCode, _, rfl⟩
  | stats => exact ⟨r.config.showCode, _, rfl⟩
  | unknown word => exact ⟨r.config.showCode, _, rfl⟩

theorem endTurn_frame (r : Repl) (ended : Bool) (failures : List Failure) :
    ∃ console : Console, (r.endTurn ended failures).repl = { r with console } := by
  unfold endTurn
  cases ended with
  | false => exact ⟨r.console, rfl⟩
  | true =>
      by_cases hinteractive : r.config.interactive = true
      · exact ⟨(r.putLines ["\nBye!"]).console, by simp [hinteractive, putLines]⟩
      · exact ⟨r.console, by simp [hinteractive]⟩

theorem turn_frame (r : Repl) (failedReads : Nat) (read : Read) :
    ∃ (showCode : Bool) (engine : Engine) (console : Console) (evaluations : List Evaluation),
      (r.turn failedReads read).repl =
        { r with
          config.showCode := showCode
          line := r.line + 1
          engine, console, evaluations } := by
  have hasked := asked_eq r
  have hway := way_turn r failedReads read
  generalize r.turn failedReads read = t at hway ⊢
  cases hway with
  | failedRead f =>
      rw [onReadFailure, hasked]
      exact ⟨r.config.showCode, r.engine, _, r.evaluations, rfl⟩
  | command ended =>
      obtain ⟨showCode, console, hobey⟩ :=
        obey_frame (asked r) (Command.ofLine (trimLineEnd read.text))
      generalize (asked r).obey (Command.ofLine (trimLineEnd read.text)) = obeyed at hobey ⊢
      obtain ⟨stop, after⟩ := obeyed
      cases stop with
      | some reason =>
          simp only at hobey
          rw [afterCommand, hobey, hasked]
          exact ⟨showCode, r.engine, console, r.evaluations, rfl⟩
      | none =>
          obtain ⟨console', hend⟩ := endTurn_frame after ended []
          simp only at hobey
          rw [afterCommand, hend, hobey, hasked]
          exact ⟨showCode, r.engine, console', r.evaluations, rfl⟩
  | blank ended =>
      obtain ⟨console, hend⟩ := endTurn_frame (asked r) ended []
      rw [hend, hasked]
      exact ⟨r.config.showCode, r.engine, console, r.evaluations, rfl⟩
  | program ended =>
      obtain ⟨engine, console, evaluations, heval⟩ := eval_frame (asked r) (trimLineEnd read.text)
      generalize (asked r).eval (trimLineEnd read.text) = evaluated at heval ⊢
      obtain ⟨ending, after⟩ := evaluated
      cases ending with
      | crashed message =>
          simp only at heval
          rw [afterEval, heval, hasked]
          exact ⟨r.config.showCode, engine, console, evaluations, rfl⟩
      | finished failure =>
          obtain ⟨console', hend⟩ := endTurn_frame after ended failure.toList
          simp only at heval
          rw [afterEval, hend, heval, hasked]
          exact ⟨r.config.showCode, engine, console', evaluations, rfl⟩

theorem extends_turn (r : Repl) (failedReads : Nat) (read : Read) :
    Extends r.console (r.turn failedReads read).repl.console := by
  have hasked := (keeps_asked r).console
  have hway := way_turn r failedReads read
  generalize r.turn failedReads read = t at hway ⊢
  cases hway with
  | failedRead f => exact hasked.trans (extends_write _ _)
  | command ended =>
      exact hasked.trans ((keeps_obey _ _).console.trans (keeps_afterCommand ended _).console)
  | blank ended => exact hasked.trans (keeps_endTurn _ ended []).console
  | program ended =>
      exact hasked.trans ((extends_eval _ _).trans (keeps_afterEval ended _).console)

/-! ## Courses -/

def nextRead (r : Repl) : Read :=
  r.reads.headD .atEnd

def step (r : Repl) (failedReads : Nat) : Turn :=
  { r with reads := r.reads.tail }.turn failedReads (nextRead r)

theorem does_step (r : Repl) (failedReads : Nat) :
    Does r failedReads (nextRead r) (step r failedReads) := by
  have hdoes := does_turn { r with reads := r.reads.tail } failedReads (nextRead r)
  exact ⟨hdoes.next, hdoes.engine, hdoes.evaluations, hdoes.readFailed, hdoes.failures⟩

theorem step_frame (r : Repl) (failedReads : Nat) :
    ∃ (showCode : Bool) (engine : Engine) (console : Console) (evaluations : List Evaluation),
      (step r failedReads).repl =
        { r with
          config.showCode := showCode
          reads := r.reads.tail
          line := r.line + 1
          engine, console, evaluations } :=
  turn_frame { r with reads := r.reads.tail } failedReads (nextRead r)

theorem line_step (r : Repl) (failedReads : Nat) : (step r failedReads).repl.line = r.line + 1 := by
  obtain ⟨_, _, _, _, hframe⟩ := step_frame r failedReads
  rw [hframe]

theorem reads_step (r : Repl) (failedReads : Nat) :
    (step r failedReads).repl.reads = r.reads.tail := by
  obtain ⟨_, _, _, _, hframe⟩ := step_frame r failedReads
  rw [hframe]

theorem interactive_step (r : Repl) (failedReads : Nat) :
    (step r failedReads).repl.config.interactive = r.config.interactive := by
  obtain ⟨_, _, _, _, hframe⟩ := step_frame r failedReads
  rw [hframe]

theorem format_step (r : Repl) (failedReads : Nat) :
    (step r failedReads).repl.config.format = r.config.format := by
  obtain ⟨_, _, _, _, hframe⟩ := step_frame r failedReads
  rw [hframe]

theorem accepts_step {r : Repl} (haccepts : Accepts r.console) (failedReads : Nat) :
    Accepts (step r failedReads).repl.console :=
  (extends_turn { r with reads := r.reads.tail } failedReads (nextRead r)).accepts haccepts

/-- From `r`, after so many failed reads in a row, the loop makes the given reads, meets the given
failures, and takes the given turn last. -/
inductive Course : Repl → Nat → List Read → List Failure → Turn → Prop where
  | last (r : Repl) (failedReads : Nat) (hstops : ∀ n, (step r failedReads).next ≠ .goOn n) :
      Course r failedReads [nextRead r] (step r failedReads).failures (step r failedReads)
  | more (r : Repl) {failedReads n : Nat} {made : List Read} {failures : List Failure} {t : Turn}
      (hgoes : (step r failedReads).next = .goOn n)
      (hcourse : Course (step r failedReads).repl n made failures t) :
      Course r failedReads (nextRead r :: made) ((step r failedReads).failures ++ failures) t

def endOf : Next → RunEnd
  | .goOn _ => .stopped .inputEnded
  | .stop reason => .stopped reason
  | .crash message => .crashed message

theorem lastTurn_eq (t : Turn) (earlier : List Failure) :
    lastTurn t earlier = ⟨endOf t.next, earlier.reverse ++ t.failures, t.repl⟩ := by
  unfold lastTurn endOf
  cases t.next <;> simp

theorem loop_of_goOn {r : Repl} {failedReads n : Nat} (hgoes : (step r failedReads).next = .goOn n)
    (hreads : r.reads ≠ []) (earlier : List Failure) :
    r.loop failedReads earlier r.reads =
      (step r failedReads).repl.loop n ((step r failedReads).failures.reverse ++ earlier)
        r.reads.tail := by
  unfold step nextRead at hgoes ⊢
  cases h : r.reads with
  | nil => exact absurd h hreads
  | cons read rest =>
      rw [h] at hgoes
      simp only [List.tail_cons, List.headD_cons] at hgoes ⊢
      rw [loop]
      simp only [hgoes]

theorem loop_of_stops {r : Repl} {failedReads : Nat}
    (hstops : ∀ n, (step r failedReads).next ≠ .goOn n) (earlier : List Failure) :
    r.loop failedReads earlier r.reads = lastTurn (step r failedReads) earlier := by
  unfold step nextRead at hstops ⊢
  cases h : r.reads with
  | nil => rfl
  | cons read rest =>
      rw [h] at hstops
      simp only [List.tail_cons, List.headD_cons] at hstops ⊢
      rw [loop]
      split
      · exact absurd ‹_› (hstops _)
      · rfl

theorem reads_ne_nil_of_goOn {r : Repl} {failedReads n : Nat}
    (hgoes : (step r failedReads).next = .goOn n) : r.reads ≠ [] := by
  intro hreads
  have hlast := isLast_of_goOn (nextAfter_of_goOn hgoes)
  have hend : nextRead r = .atEnd := by rw [nextRead, hreads, List.headD_nil]
  rw [hend] at hlast
  exact absurd hlast (by decide)

theorem exists_course (r : Repl) (failedReads : Nat) :
    ∃ made failures t, Course r failedReads made failures t := by
  -- By the reads that are left: behind the last of them a turn never goes on.
  induction hreads : r.reads generalizing r failedReads with
  | nil =>
      refine ⟨_, _, _, .last r failedReads ?_⟩
      intro n hgoes
      exact reads_ne_nil_of_goOn hgoes hreads
  | cons read rest ih =>
      by_cases hgoes : ∃ n, (step r failedReads).next = .goOn n
      · obtain ⟨n, hgoes⟩ := hgoes
        obtain ⟨made, failures, t, hcourse⟩ :=
          ih (step r failedReads).repl n (by rw [reads_step, hreads, List.tail_cons])
        exact ⟨_, _, _, .more r hgoes hcourse⟩
      · exact ⟨_, _, _, .last r failedReads (not_exists.1 hgoes)⟩

theorem loop_of_course {r : Repl} {failedReads : Nat} {made : List Read} {failures : List Failure}
    {t : Turn} (hcourse : Course r failedReads made failures t) (earlier : List Failure) :
    r.loop failedReads earlier r.reads = ⟨endOf t.next, earlier.reverse ++ failures, t.repl⟩ := by
  induction hcourse generalizing earlier with
  | last r failedReads hstops => rw [loop_of_stops hstops, lastTurn_eq]
  | more r hgoes _ ih =>
      rw [loop_of_goOn hgoes (reads_ne_nil_of_goOn hgoes), ← reads_step r, ih]
      simp

theorem Course.stops {r : Repl} {failedReads n : Nat} {made : List Read} {failures : List Failure}
    {t : Turn} (hcourse : Course r failedReads made failures t) : t.next ≠ .goOn n := by
  induction hcourse with
  | last r failedReads hstops => exact hstops n
  | more _ _ _ ih => exact ih

theorem Course.ne_nil {r : Repl} {failedReads : Nat} {made : List Read} {failures : List Failure}
    {t : Turn} (hcourse : Course r failedReads made failures t) : made ≠ [] := by
  cases hcourse <;> exact List.cons_ne_nil _ _

theorem Course.made_within {r : Repl} {failedReads : Nat} {made : List Read} {failures : List Failure}
    {t : Turn} (hcourse : Course r failedReads made failures t) : made <+: r.reads ++ [.atEnd] := by
  induction hcourse with
  | last r failedReads =>
      unfold nextRead
      cases r.reads with
      | nil => exact List.prefix_refl _
      | cons read rest => exact ⟨rest ++ [.atEnd], rfl⟩
  | more r hgoes _ ih =>
      have hne := reads_ne_nil_of_goOn hgoes
      rw [reads_step] at ih
      unfold nextRead
      cases hreads : r.reads with
      | nil => exact absurd hreads hne
      | cons read rest =>
          rw [hreads] at ih
          exact (List.prefix_cons_inj read).2 ih

theorem Course.line_eq {r : Repl} {failedReads : Nat} {made : List Read} {failures : List Failure}
    {t : Turn} (hcourse : Course r failedReads made failures t) :
    t.repl.line = r.line + made.length := by
  induction hcourse with
  | last r failedReads => exact line_step r failedReads
  | @more r failedReads n made failures t hgoes _ ih =>
      rw [ih, line_step, List.length_cons]
      omega

theorem Course.reads_eq {r : Repl} {failedReads : Nat} {made : List Read} {failures : List Failure}
    {t : Turn} (hcourse : Course r failedReads made failures t) :
    t.repl.reads = r.reads.drop made.length := by
  induction hcourse with
  | last r failedReads => simpa using reads_step r failedReads
  | more r hgoes _ ih => rw [ih, reads_step, List.drop_tail, List.length_cons]

theorem nextAfter_congr {r s : Repl} (hinteractive : s.config.interactive = r.config.interactive)
    (failedReads : Nat) (read : Read) :
    nextAfter s failedReads read = nextAfter r failedReads read := by
  rw [nextAfter, nextAfter, quits, quits, readsCommand, readsCommand, hinteractive]

theorem Course.next_eq {r : Repl} {failedReads : Nat} {made : List Read} {failures : List Failure}
    {t : Turn} (hcourse : Course r failedReads made failures t) :
    ∃ last n, made.getLast? = some last ∧
      (t.next = nextAfter r n last ∨ ∃ message, t.next = .crash message) := by
  induction hcourse with
  | last r failedReads =>
      exact ⟨nextRead r, failedReads, rfl, next_turn { r with reads := r.reads.tail } _ _⟩
  | @more r failedReads n made failures t hgoes hcourse ih =>
      obtain ⟨last, m, hlast, hnext⟩ := ih
      refine ⟨last, m, ?_, ?_⟩
      · rw [List.getLast?_cons, hlast]
        rfl
      · rw [nextAfter_congr (interactive_step r failedReads)] at hnext
        exact hnext

/-! ## Runs -/

theorem greet_frame (r : Repl) : ∃ console : Console, r.greet = { r with console } := by
  unfold greet
  by_cases hinteractive : r.config.interactive = true
  · exact ⟨(r.putLines welcome).console, by simp [hinteractive, putLines]⟩
  · exact ⟨r.console, by simp [hinteractive]⟩

theorem reads_greet (r : Repl) : r.greet.reads = r.reads := by
  obtain ⟨_, hgreet⟩ := greet_frame r
  rw [hgreet]

theorem line_greet (r : Repl) : r.greet.line = r.line := by
  obtain ⟨_, hgreet⟩ := greet_frame r
  rw [hgreet]

theorem config_greet (r : Repl) : r.greet.config = r.config := by
  obtain ⟨_, hgreet⟩ := greet_frame r
  rw [hgreet]

theorem run_of_course {r : Repl} {made : List Read} {failures : List Failure} {t : Turn}
    (hcourse : Course r.greet 0 made failures t) : r.run = ⟨endOf t.next, failures, t.repl⟩ := by
  rw [run, ← reads_greet, loop_of_course hcourse]
  rfl

/-- The reads that a run makes: as many as it counts, of those that are left and the end behind
them. -/
def readsMade (r : Repl) : List Read :=
  (r.reads ++ [Read.atEnd]).take (r.run.repl.line - r.line)

theorem course_run (r : Repl) :
    ∃ t, Course r.greet 0 (readsMade r) r.run.failures t ∧
      r.run.ending = endOf t.next ∧ r.run.repl = t.repl := by
  obtain ⟨made, failures, t, hcourse⟩ := exists_course r.greet 0
  have hrun := run_of_course hcourse
  have hmade : readsMade r = made := by
    -- Each read counts as a line, so the lines counted tell how many reads were made.
    have hcount : r.run.repl.line - r.line = made.length := by
      rw [hrun, hcourse.line_eq, line_greet]
      omega
    have hwithin := hcourse.made_within
    rw [readsMade, hcount, ← reads_greet]
    exact (List.prefix_iff_eq_take.1 hwithin).symm
  rw [hmade, hrun]
  exact ⟨t, hcourse, rfl, rfl⟩

theorem line_run (r : Repl) : r.run.repl.line = r.line + (readsMade r).length := by
  obtain ⟨t, hcourse, _, hrepl⟩ := course_run r
  rw [hrepl, hcourse.line_eq, line_greet]

theorem reads_run (r : Repl) : r.run.repl.reads = r.reads.drop (readsMade r).length := by
  obtain ⟨t, hcourse, _, hrepl⟩ := course_run r
  rw [hrepl, hcourse.reads_eq, reads_greet]

theorem readsMade_within (r : Repl) : readsMade r <+: r.reads ++ [.atEnd] :=
  List.take_prefix _ _

/-- A run that returns has come to its last read, and stops for the reason that this read gives. -/
theorem ending_run (r : Repl) :
    ∃ last n, (readsMade r).getLast? = some last ∧
      ∀ reason, r.run.ending = .stopped reason → nextAfter r n last = .stop reason := by
  obtain ⟨t, hcourse, hending, _⟩ := course_run r
  obtain ⟨last, n, hlast, hnext⟩ := hcourse.next_eq
  have hinteractive : r.greet.config.interactive = r.config.interactive := by rw [config_greet]
  rw [nextAfter_congr hinteractive] at hnext
  refine ⟨last, n, hlast, ?_⟩
  intro reason hstopped
  rw [hending] at hstopped
  rcases hnext with hnext | ⟨message, hcrash⟩
  · rw [← hnext]
    cases hgoes : t.next with
    | goOn m => exact absurd hgoes hcourse.stops
    | stop other =>
        rw [hgoes] at hstopped
        cases hstopped
        rfl
    | crash message =>
        rw [hgoes] at hstopped
        cases hstopped
  · rw [hcrash] at hstopped
    cases hstopped

end Accumulator.Proofs.Courses
