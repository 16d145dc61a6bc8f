import Accumulator.Proofs.Evaluating
import Accumulator.Repl.Loop
/-!
# What one turn of the loop does

The ways through a turn, and what each of them leaves alone.  Only an evaluation touches the engine;
everything else a turn does is seen on the console.  What every turn keeps, a whole run keeps.
-/

namespace Accumulator.Proofs.Turns

open Evaluating Repl

/-! ## Consoles -/

structure Extends (before after : Console) : Prop where
  sink : after.sink = before.sink
  writes : before.writes <:+ after.writes

theorem Extends.refl (c : Console) : Extends c c :=
  ⟨rfl, List.suffix_refl _⟩

theorem Extends.trans {a b c : Console} (hab : Extends a b) (hbc : Extends b c) : Extends a c :=
  ⟨hbc.sink.trans hab.sink, hab.writes.trans hbc.writes⟩

theorem extends_write (c : Console) (text : Bytes) : Extends c (c.write text).2 := by
  unfold Console.write
  cases c.sink c.attempts c.taken text with
  | none => exact ⟨rfl, List.suffix_cons _ _⟩
  | some f => exact ⟨rfl, List.suffix_cons _ _⟩

theorem extends_putLines (c : Console) (lines : List String) : Extends c (c.putLines lines) := by
  induction lines generalizing c with
  | nil => exact .refl c
  | cons text lines ih => exact (extends_write c _).trans (ih _)

theorem extends_listed (config : ReplConfig) (c : Console) (source : Bytes) :
    Extends c (listed config c source) := by
  unfold listed
  by_cases hshow : config.showCode = true
  · rw [if_pos hshow]
    exact extends_write c _
  · rw [if_neg hshow]
    exact .refl c

theorem extends_reported (config : ReplConfig) (c : Console) (report : Report)
    (failure : Option Failure) : Extends c (reported config c report failure).2 := by
  cases hrender : report.render? config.format with
  | none =>
      rw [reported_of_none hrender]
      exact .refl c
  | some text =>
      rw [reported_of_some hrender]
      exact extends_write c text

theorem extends_eval (r : Repl) (source : Bytes) :
    Extends r.console (r.eval source).2.console := by
  have hlisted := extends_listed r.config r.console source
  rw [eval_eq]
  unfold outcomeOf
  cases (r.engine.compileAndRun source).1.verdict with
  | aborted message => exact hlisted
  | value v => exact hlisted.trans (extends_reported _ _ _ _)
  | failed f => exact hlisted.trans (extends_reported _ _ _ _)

theorem Extends.accepts {before after : Console} (hextends : Extends before after)
    (haccepts : Accepts before) : Accepts after := by
  intro attempts taken text
  rw [hextends.sink]
  exact haccepts attempts taken text

theorem eval_of_accepts {r : Repl} (haccepts : Accepts r.console) (source : Bytes) :
    (r.eval source).1 = endingOf r.config.format (evaluationOf r source) := by
  have hlisted : Accepts (listed r.config r.console source) :=
    (extends_listed r.config r.console source).accepts haccepts
  rw [eval_eq, outcomeOf, endingOf, failureOf, evaluationOf]
  simp only
  cases (r.engine.compileAndRun source).1.verdict with
  | aborted message => rfl
  | value v =>
      rw [reported_of_accepts hlisted]
      cases r.config.format <;> rfl
  | failed f =>
      rw [reported_of_accepts hlisted]
      cases r.config.format with
      | json => rfl
      | text =>
          rw [render?_text_failed]
          by_cases hmessage : f.message = []
          · simp [crashOf, hmessage]
          · simp [crashOf, hmessage]

/-! ## What is left alone -/

/-- Nothing was evaluated between the two. -/
structure Keeps (before after : Repl) : Prop where
  engine : after.engine = before.engine
  evaluations : after.evaluations = before.evaluations
  format : after.config.format = before.config.format
  encoder : after.config.encoder = before.config.encoder
  console : Extends before.console after.console

theorem Keeps.trans {a b c : Repl} (hab : Keeps a b) (hbc : Keeps b c) : Keeps a c where
  engine := hbc.engine.trans hab.engine
  evaluations := hbc.evaluations.trans hab.evaluations
  format := hbc.format.trans hab.format
  encoder := hbc.encoder.trans hab.encoder
  console := hab.console.trans hbc.console

theorem keeps_self (r : Repl) : Keeps r r :=
  ⟨rfl, rfl, rfl, rfl, .refl _⟩

theorem keeps_put (r : Repl) (text : Bytes) : Keeps r (r.put text) :=
  ⟨rfl, rfl, rfl, rfl, extends_write _ _⟩

theorem keeps_putLines (r : Repl) (lines : List String) : Keeps r (r.putLines lines) :=
  ⟨rfl, rfl, rfl, rfl, extends_putLines _ _⟩

theorem keeps_greet (r : Repl) : Keeps r r.greet := by
  unfold greet
  split
  · exact keeps_putLines r _
  · exact keeps_self r

theorem keeps_obey (r : Repl) (c : Command) : Keeps r (r.obey c).2 := by
  cases c with
  | help => exact keeps_putLines r _
  | quit => exact keeps_putLines r _
  | dump => exact ⟨rfl, rfl, rfl, rfl, extends_putLines _ _⟩
  | stats => exact keeps_put r _
  | unknown word => exact (keeps_put r _).trans (keeps_putLines _ _)

theorem keeps_endTurn (r : Repl) (ended : Bool) (failures : List Failure) :
    Keeps r (r.endTurn ended failures).repl := by
  unfold endTurn
  cases ended with
  | false => exact keeps_self r
  | true =>
      rw [if_pos rfl]
      by_cases hinteractive : r.config.interactive = true
      · rw [if_pos hinteractive]
        exact keeps_putLines r _
      · rw [if_neg hinteractive]
        exact keeps_self r

theorem failures_endTurn (r : Repl) (ended : Bool) (failures : List Failure) :
    (r.endTurn ended failures).failures = failures := by
  cases ended <;> rfl

theorem endTurn_ne_crash (r : Repl) (ended : Bool) (failures : List Failure)
    (message : Option Bytes) : (r.endTurn ended failures).next ≠ .crash message := by
  cases ended <;> exact nofun

/-! ## The ways through a turn -/

def asked (r : Repl) : Repl :=
  { r.ask with line := r.line + 1 }

theorem keeps_asked (r : Repl) : Keeps r (asked r) := by
  have hask : Keeps r r.ask := by
    unfold ask
    split
    · exact keeps_put r _
    · exact keeps_self r
  exact ⟨hask.engine, hask.evaluations, hask.format, hask.encoder, hask.console⟩

theorem asked_eq (r : Repl) :
    asked r = { r with line := r.line + 1, console := (asked r).console } := by
  unfold asked ask
  split <;> rfl

/-- The read hands over a line; `ended` if the input ends with it. -/
def HandsOver (read : Read) (ended : Bool) : Prop :=
  match read.failure with
  | none => ended = false
  | some f => f.isEnd = true ∧ ended = true

theorem HandsOver.ended_eq_false {read : Read} {ended : Bool} (hover : HandsOver read ended)
    (hread : read.failure = none) : ended = false := by
  rw [HandsOver, hread] at hover
  exact hover

def afterCommand (ended : Bool) : Option Stop × Repl → Turn
  | (some reason, r) => ⟨.stop reason, [], r⟩
  | (none, r) => r.endTurn ended []

def afterEval (ended : Bool) : EvalEnd × Repl → Turn
  | (.crashed message, r) => ⟨.crash message, [], r⟩
  | (.finished failure, r) => r.endTurn ended failure.toList

theorem keeps_afterCommand (ended : Bool) (obeyed : Option Stop × Repl) :
    Keeps obeyed.2 (afterCommand ended obeyed).repl := by
  obtain ⟨stop, after⟩ := obeyed
  cases stop with
  | some reason => exact keeps_self after
  | none => exact keeps_endTurn after ended []

theorem failures_afterCommand (ended : Bool) (obeyed : Option Stop × Repl) :
    (afterCommand ended obeyed).failures = [] := by
  obtain ⟨stop, after⟩ := obeyed
  cases stop with
  | some reason => rfl
  | none => exact failures_endTurn after ended []

theorem afterCommand_ne_crash (ended : Bool) (obeyed : Option Stop × Repl)
    (message : Option Bytes) : (afterCommand ended obeyed).next ≠ .crash message := by
  obtain ⟨stop, after⟩ := obeyed
  cases stop with
  | some reason => exact nofun
  | none => exact endTurn_ne_crash after ended [] message

theorem keeps_afterEval (ended : Bool) (evaluated : EvalEnd × Repl) :
    Keeps evaluated.2 (afterEval ended evaluated).repl := by
  obtain ⟨ending, after⟩ := evaluated
  cases ending with
  | crashed message => exact keeps_self after
  | finished failure => exact keeps_endTurn after ended failure.toList

theorem afterEval_of_crashed {evaluated : EvalEnd × Repl} {message : Option Bytes}
    (hcrash : evaluated.1 = .crashed message) (ended : Bool) :
    afterEval ended evaluated = ⟨.crash message, [], evaluated.2⟩ := by
  obtain ⟨ending, after⟩ := evaluated
  cases hcrash
  rfl

theorem afterEval_of_returns {evaluated : EvalEnd × Repl}
    (hreturns : ∀ message, evaluated.1 ≠ .crashed message) (ended : Bool) :
    ∃ failures, afterEval ended evaluated = evaluated.2.endTurn ended failures := by
  obtain ⟨ending, after⟩ := evaluated
  cases ending with
  | crashed message => exact absurd rfl (hreturns message)
  | finished failure => exact ⟨failure.toList, rfl⟩

theorem crashed_of_afterEval {ended : Bool} {evaluated : EvalEnd × Repl} {message : Option Bytes}
    (hcrash : (afterEval ended evaluated).next = .crash message) :
    evaluated.1 = .crashed message := by
  obtain ⟨ending, after⟩ := evaluated
  cases ending with
  | crashed crash =>
      cases hcrash
      rfl
  | finished failure => exact absurd hcrash (endTurn_ne_crash after ended _ message)

def readsCommand (r : Repl) (line : Bytes) : Bool :=
  r.config.interactive && Command.isCommand line

theorem onLine_eq (r : Repl) (line : Bytes) (ended : Bool) :
    r.onLine line ended =
      if readsCommand r line then afterCommand ended (r.obey (Command.ofLine line))
      else if Text.allBlank line then r.endTurn ended []
      else afterEval ended (r.eval line) := by
  unfold onLine readsCommand
  split
  · generalize r.obey (Command.ofLine line) = obeyed
    obtain ⟨stop, after⟩ := obeyed
    cases stop <;> rfl
  · split
    · rfl
    · generalize r.eval line = evaluated
      obtain ⟨ending, after⟩ := evaluated
      cases ending <;> rfl

theorem turn_eq (r : Repl) (failedReads : Nat) (read : Read) :
    r.turn failedReads read =
      match read.failure with
      | none => (asked r).onLine (trimLineEnd read.text) false
      | some f =>
          if f.isEnd then (asked r).onLine (trimLineEnd read.text) true
          else (asked r).onReadFailure failedReads f := by
  have hasked : ({ r.ask with line := r.ask.line + 1 } : Repl) = asked r := by
    unfold asked ask
    split <;> rfl
  rw [← hasked]
  rfl

inductive Way (r : Repl) (failedReads : Nat) (read : Read) : Turn → Prop where
  | failedRead (f : Failure) (hread : read.failure = some f) (hend : f.isEnd = false) :
      Way r failedReads read ((asked r).onReadFailure failedReads f)
  | command (ended : Bool) (hread : HandsOver read ended)
      (hcommand : readsCommand r (trimLineEnd read.text) = true) :
      Way r failedReads read
        (afterCommand ended ((asked r).obey (Command.ofLine (trimLineEnd read.text))))
  | blank (ended : Bool) (hread : HandsOver read ended)
      (hcommand : readsCommand r (trimLineEnd read.text) = false)
      (hblank : Text.allBlank (trimLineEnd read.text) = true) :
      Way r failedReads read ((asked r).endTurn ended [])
  | program (ended : Bool) (hread : HandsOver read ended)
      (hcommand : readsCommand r (trimLineEnd read.text) = false)
      (hblank : Text.allBlank (trimLineEnd read.text) = false) :
      Way r failedReads read (afterEval ended ((asked r).eval (trimLineEnd read.text)))

theorem way_onLine {r : Repl} {failedReads : Nat} {read : Read} {ended : Bool}
    (hread : HandsOver read ended) :
    Way r failedReads read ((asked r).onLine (trimLineEnd read.text) ended) := by
  have hasked : readsCommand (asked r) (trimLineEnd read.text) =
      readsCommand r (trimLineEnd read.text) := by
    rw [asked_eq]
    rfl
  rw [onLine_eq, hasked]
  cases hcommand : readsCommand r (trimLineEnd read.text) with
  | true =>
      rw [if_pos rfl]
      exact .command ended hread hcommand
  | false =>
      rw [if_neg Bool.false_ne_true]
      cases hblank : Text.allBlank (trimLineEnd read.text) with
      | true =>
          rw [if_pos rfl]
          exact .blank ended hread hcommand hblank
      | false =>
          rw [if_neg Bool.false_ne_true]
          exact .program ended hread hcommand hblank

theorem way_turn (r : Repl) (failedReads : Nat) (read : Read) :
    Way r failedReads read (r.turn failedReads read) := by
  rw [turn_eq]
  cases hfailure : read.failure with
  | none =>
      apply way_onLine
      rw [HandsOver, hfailure]
  | some f =>
      simp only
      cases hend : f.isEnd with
      | true =>
          rw [if_pos rfl]
          apply way_onLine
          rw [HandsOver, hfailure]
          exact ⟨hend, rfl⟩
      | false =>
          rw [if_neg Bool.false_ne_true]
          exact .failedRead f hfailure hend

theorem onReadFailure_ne_crash (r : Repl) (failedReads : Nat) (f : Failure)
    (message : Option Bytes) : (r.onReadFailure failedReads f).next ≠ .crash message := by
  unfold onReadFailure
  split <;> exact nofun

theorem eval_of_crash {r : Repl} {failedReads : Nat} {read : Read} {message : Option Bytes}
    (hcrash : (r.turn failedReads read).next = .crash message) :
    ((asked r).eval (trimLineEnd read.text)).1 = .crashed message := by
  have hway := way_turn r failedReads read
  generalize r.turn failedReads read = t at hcrash hway
  cases hway with
  | failedRead f => exact absurd hcrash (onReadFailure_ne_crash _ _ f message)
  | command ended => exact absurd hcrash (afterCommand_ne_crash ended _ message)
  | blank ended => exact absurd hcrash (endTurn_ne_crash _ ended [] message)
  | program ended => exact crashed_of_afterEval hcrash

/-- A turn runs at most one program, and that on the engine as it was. -/
theorem engine_turn (r : Repl) (failedReads : Nat) (read : Read) :
    (r.turn failedReads read).repl.engine = r.engine ∨
      (r.turn failedReads read).repl.engine =
        (r.engine.compileAndRun (trimLineEnd read.text)).2 := by
  have hasked := keeps_asked r
  have hway := way_turn r failedReads read
  generalize r.turn failedReads read = t at hway ⊢
  cases hway with
  | failedRead f => exact .inl (hasked.trans (keeps_put _ _)).engine
  | command ended =>
      exact .inl (hasked.trans ((keeps_obey _ _).trans (keeps_afterCommand ended _))).engine
  | blank ended => exact .inl (hasked.trans (keeps_endTurn _ ended [])).engine
  | program ended =>
      have hengine : ((asked r).eval (trimLineEnd read.text)).2.engine =
          (r.engine.compileAndRun (trimLineEnd read.text)).2 := by
        rw [eval_eq, hasked.engine]
      exact .inr ((keeps_afterEval ended _).engine.trans hengine)

/-! ## Evaluations -/

def Lasts (Q : Console → List Failure → Evaluation → Prop) : Prop :=
  ∀ ⦃before after : Console⦄ ⦃failures more : List Failure⦄ ⦃ev : Evaluation⦄,
    Q before failures ev → Extends before after → failures ⊆ more → Q after more ev

/-- The evaluations since `start` are all as `Q` says, which is about the console and the failures as
they are now. -/
structure EachSince (start : Repl) (Q : Console → List Failure → Evaluation → Prop) (r : Repl)
    (failures : List Failure) : Prop where
  format : r.config.format = start.config.format
  encoder : r.config.encoder = start.config.encoder
  each : ∃ new, r.evaluations = new ++ start.evaluations ∧ ∀ ev ∈ new, Q r.console failures ev

section EachSince

variable {start r : Repl} {failures : List Failure}
  {Q : Console → List Failure → Evaluation → Prop} (hlasts : Lasts Q)
include hlasts

theorem EachSince.keeps {after : Repl} {more : List Failure} (hall : EachSince start Q r failures)
    (hkeeps : Keeps r after) (hmore : failures ⊆ more) : EachSince start Q after more := by
  obtain ⟨hformat, hencoder, new, hnew, heach⟩ := hall
  refine ⟨hkeeps.format.trans hformat, hkeeps.encoder.trans hencoder, new,
    hkeeps.evaluations.trans hnew, ?_⟩
  intro ev hev
  exact hlasts (heach ev hev) hkeeps.console hmore

theorem EachSince.eval {source : Bytes} {failure : Option Failure}
    (hall : EachSince start Q r failures)
    (heval : Q (r.eval source).2.console failure.toList
      ⟨r.line, source, (r.engine.compileAndRun source).1⟩) :
    EachSince start Q (r.eval source).2 (failures ++ failure.toList) := by
  obtain ⟨hformat, hencoder, new, hnew, heach⟩ := hall
  have hconfig : (r.eval source).2.config = r.config := by rw [eval_eq]
  have hevaluations : (r.eval source).2.evaluations =
      ⟨r.line, source, (r.engine.compileAndRun source).1⟩ :: r.evaluations := by rw [eval_eq]
  refine ⟨by rw [hconfig, hformat], by rw [hconfig, hencoder], _ :: new,
    by rw [hevaluations, hnew, List.cons_append], ?_⟩
  intro ev hev
  rcases List.mem_cons.1 hev with rfl | hev
  · exact hlasts heval (.refl _) (List.subset_append_right _ _)
  · exact hlasts (heach ev hev) (extends_eval r source) (List.subset_append_left _ _)

theorem EachSince.turn {failedReads : Nat} {read : Read} (hall : EachSince start Q r failures)
    (heval : ∀ source failure, ((asked r).eval source).1 = .finished failure →
      Q ((asked r).eval source).2.console failure.toList
        ⟨(asked r).line, source, ((asked r).engine.compileAndRun source).1⟩)
    (hgoes : ∀ message, (r.turn failedReads read).next ≠ .crash message) :
    EachSince start Q (r.turn failedReads read).repl
      (failures ++ (r.turn failedReads read).failures) := by
  have hasked : EachSince start Q (asked r) failures :=
    hall.keeps hlasts (keeps_asked r) (List.Subset.refl _)
  have hway := way_turn r failedReads read
  generalize r.turn failedReads read = t at hgoes hway ⊢
  cases hway with
  | failedRead f => exact hasked.keeps hlasts (keeps_put _ _) (List.subset_append_left _ _)
  | command ended =>
      exact hasked.keeps hlasts ((keeps_obey _ _).trans (keeps_afterCommand ended _))
        (List.subset_append_left _ _)
  | blank ended =>
      exact hasked.keeps hlasts (keeps_endTurn _ ended []) (List.subset_append_left _ _)
  | program ended =>
      have hkept : ∀ failure, ((asked r).eval (trimLineEnd read.text)).1 = .finished failure →
          EachSince start Q ((asked r).eval (trimLineEnd read.text)).2
            (failures ++ failure.toList) :=
        fun failure hfinished => hasked.eval hlasts (heval _ failure hfinished)
      generalize (asked r).eval (trimLineEnd read.text) = evaluated at hgoes hkept ⊢
      obtain ⟨ending, after⟩ := evaluated
      cases ending with
      | crashed message => exact absurd rfl (hgoes message)
      | finished failure =>
          rw [afterEval, failures_endTurn]
          exact (hkept failure rfl).keeps hlasts (keeps_endTurn after ended failure.toList)
            (List.Subset.refl _)

theorem eachSince_greet : EachSince r Q r.greet [] :=
  EachSince.keeps hlasts ⟨rfl, rfl, [], rfl, nofun⟩ (keeps_greet r) (List.Subset.refl _)

end EachSince

/-! ## Runs -/

/-- How a run ends, if every turn that does not crash keeps `P`, which is about the loop and its
failures so far: the loop stops with `P`, or one more turn from a loop with `P` crashes. -/
inductive Ends (P : Repl → List Failure → Prop) (run : Run) : Prop where
  | stopped (reason : Stop) (hending : run.ending = .stopped reason)
      (hkept : P run.repl run.failures)
  | crashed (message : Option Bytes) (hending : run.ending = .crashed message) (r : Repl)
      (failures : List Failure) (failedReads : Nat) (read : Read) (hkept : P r failures)
      (hcrash : (r.turn failedReads read).next = .crash message)

section Kept

variable {P : Repl → List Failure → Prop}
  (hreads : ∀ r failures reads, P r failures → P { r with reads } failures)
  (hturn : ∀ r failures failedReads read, P r failures →
    (∀ message, (r.turn failedReads read).next ≠ .crash message) →
    P (r.turn failedReads read).repl (failures ++ (r.turn failedReads read).failures))
include hturn

theorem ends_lastTurn {r : Repl} {failures : List Failure} (hstart : P r failures.reverse)
    (failedReads : Nat) (read : Read) : Ends P (lastTurn (r.turn failedReads read) failures) := by
  have hkept := hturn r failures.reverse failedReads read hstart
  have hfailures : ((r.turn failedReads read).failures.reverse ++ failures).reverse =
      failures.reverse ++ (r.turn failedReads read).failures := by simp
  rw [← hfailures] at hkept
  unfold lastTurn
  cases hnext : (r.turn failedReads read).next with
  | goOn failedReads => exact .stopped .inputEnded rfl (hkept (by simp [hnext]))
  | stop reason => exact .stopped reason rfl (hkept (by simp [hnext]))
  | crash message => exact .crashed message rfl r _ failedReads read hstart hnext

include hreads

theorem ends_loop {r : Repl} {failures : List Failure} (hstart : P r failures.reverse)
    (failedReads : Nat) (reads : List Read) : Ends P (r.loop failedReads failures reads) := by
  induction reads generalizing r failedReads failures with
  | nil => exact ends_lastTurn hturn (hreads r _ [] hstart) failedReads .atEnd
  | cons read rest ih =>
      have hstart' := hreads r _ rest hstart
      have hlast := ends_lastTurn hturn hstart' failedReads read
      have hkept := hturn _ _ failedReads read hstart'
      rw [loop]
      generalize ({ r with reads := rest } : Repl).turn failedReads read = t at hlast hkept ⊢
      cases hnext : t.next with
      | goOn failedReads =>
          apply ih
          rw [List.reverse_append, List.reverse_reverse]
          exact hkept (by simp [hnext])
      | stop reason => exact hlast
      | crash message => exact hlast

theorem ends_run {r : Repl} (hstart : P r.greet []) : Ends P r.run :=
  ends_loop hreads hturn hstart 0 r.reads

end Kept

end Accumulator.Proofs.Turns
