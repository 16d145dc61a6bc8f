import Accumulator.Proofs.Blanks
import Accumulator.Proofs.Evaluating
import Accumulator.Proofs.Reading
import Accumulator.Repl.Loop
import Mathlib.Data.List.DropRight
/-!
# A batch is evaluated line by line

The rule for a loop without dialogue is short: cut the input at its newlines, number the segments, and
evaluate each one that is not blank.  The loop keeps to it, however its input was handed over.
-/

namespace Accumulator.Proofs.Batch

open Blanks Evaluating Reading Repl

/-! ## The rule -/

/-- A segment without the line feeds and carriage returns at its end. -/
def stripped (segment : Bytes) : Bytes :=
  segment.rdropWhile fun b => b == 10 || b == 13

def evalLine (r : Repl) (line : Bytes) : EvalEnd × Repl :=
  if Blank line then (.finished none, r) else r.eval line

/-- Evaluates segments in order, the first of them under the given number, up to a crash. -/
def evalSegments (r : Repl) (number : Nat) : List Bytes → Run
  | [] => ⟨.stopped .inputEnded, [], r⟩
  | segment :: rest =>
      match evalLine { r with line := number } (stripped segment) with
      | (.crashed message, r) => ⟨.crashed message, [], r⟩
      | (.finished failure, r) =>
          let run := evalSegments r (number + 1) rest
          { run with failures := failure.toList ++ run.failures }

theorem evalLine_frame (r : Repl) (line : Bytes) :
    ∃ (engine : Engine) (console : Console) (evaluations : List Evaluation),
      (evalLine r line).2 = { r with engine, console, evaluations } := by
  unfold evalLine
  by_cases hblank : Blank line
  · rw [if_pos hblank]
    exact ⟨r.engine, r.console, r.evaluations, rfl⟩
  · rw [if_neg hblank]
    exact eval_frame r line

theorem evalLine_unread (r : Repl) (line : Bytes) :
    evalLine (unread r) line = ((evalLine r line).1, unread (evalLine r line).2) := by
  unfold evalLine
  by_cases hblank : Blank line
  · rw [if_pos hblank, if_pos hblank]
  · rw [if_neg hblank, if_neg hblank]
    exact eval_unread r line

/-! ## One turn -/

def turnOf (ended : Bool) : EvalEnd × Repl → Turn
  | (.crashed message, r) => ⟨.crash message, [], r⟩
  | (.finished failure, r) =>
      ⟨if ended then .stop .inputEnded else .goOn 0, failure.toList, r⟩

theorem endTurn_batch {r : Repl} (hbatch : r.config.interactive = false) (ended : Bool)
    (failures : List Failure) :
    r.endTurn ended failures = ⟨if ended then .stop .inputEnded else .goOn 0, failures, r⟩ := by
  unfold Repl.endTurn
  rw [hbatch]
  cases ended <;> rfl

theorem trimLineEnd_eq_stripped (text : Bytes) : trimLineEnd text = stripped text :=
  rfl

theorem onLine_batch {r : Repl} (hbatch : r.config.interactive = false) (line : Bytes)
    (ended : Bool) : r.onLine line ended = turnOf ended (evalLine r line) := by
  unfold Repl.onLine evalLine
  rw [hbatch, Bool.false_and, if_neg Bool.false_ne_true]
  by_cases hblank : Blank line
  · rw [if_pos ((allBlank_iff line).2 hblank), if_pos hblank, endTurn_batch hbatch]
    rfl
  · rw [if_neg (mt (allBlank_iff line).1 hblank), if_neg hblank]
    obtain ⟨engine, console, evaluations, hframe⟩ := eval_frame r line
    cases hend : r.eval line with
    | mk ending after =>
        simp only [hend] at hframe
        cases ending with
        | crashed message => rfl
        | finished failure =>
            have hafter : after.config.interactive = false := by
              rw [hframe]
              exact hbatch
            exact endTurn_batch hafter ended failure.toList

theorem turn_batch {r : Repl} (hbatch : r.config.interactive = false) (failedReads : Nat)
    (text : Bytes) (ended : Bool) :
    r.turn failedReads ⟨text, if ended then some .endOfInput else none⟩ =
      turnOf ended (evalLine { r with line := r.line + 1 } (stripped text)) := by
  have hask : r.ask = r := by
    unfold Repl.ask
    rw [hbatch]
    rfl
  have hnext : ({ r with line := r.line + 1 } : Repl).config.interactive = false := hbatch
  rw [Repl.turn, hask, ← onLine_batch hnext, ← trimLineEnd_eq_stripped]
  cases ended <;> rfl

theorem stripped_newline (segment : Bytes) :
    stripped (segment ++ [Bytes.newline]) = stripped segment :=
  List.rdropWhile_concat_pos _ _ _ (by decide)

/-! ## Segment after segment -/

def evalNext (r : Repl) (reads : List Read) (segment : Bytes) : EvalEnd × Repl :=
  evalLine { r with reads, line := r.line + 1 } (stripped segment)

theorem evalNext_frame (r : Repl) (reads : List Read) (segment : Bytes) :
    (evalNext r reads segment).2.config = r.config ∧
      (evalNext r reads segment).2.line = r.line + 1 := by
  obtain ⟨engine, console, evaluations, hframe⟩ :=
    evalLine_frame { r with reads, line := r.line + 1 } (stripped segment)
  rw [evalNext, hframe]
  exact ⟨rfl, rfl⟩

theorem evalSegments_cons (r : Repl) (reads : List Read) (segment : Bytes) (rest : List Bytes) :
    evalSegments (unread r) (r.line + 1) (segment :: rest) =
      match evalNext r reads segment with
      | (.crashed message, after) => ⟨.crashed message, [], unread after⟩
      | (.finished failure, after) =>
          let run := evalSegments (unread after) (after.line + 1) rest
          { run with failures := failure.toList ++ run.failures } := by
  have hstart : ({ unread r with line := r.line + 1 } : Repl) =
      unread { r with reads, line := r.line + 1 } := rfl
  have hline := (evalNext_frame r reads segment).2
  rw [evalSegments, hstart, evalLine_unread, ← evalNext]
  generalize evalNext r reads segment = result at hline ⊢
  obtain ⟨ending, after⟩ := result
  cases ending with
  | crashed message => rfl
  | finished failure =>
      simp only at hline ⊢
      rw [hline]

theorem loop_cons {r : Repl} (hbatch : r.config.interactive = false) (failedReads : Nat)
    (failures : List Failure) (segment : Bytes) (reads : List Read) :
    r.loop failedReads failures (⟨segment ++ [Bytes.newline], none⟩ :: reads) =
      match evalNext r reads segment with
      | (.crashed message, after) => ⟨.crashed message, failures.reverse, after⟩
      | (.finished failure, after) => after.loop 0 (failure.toList.reverse ++ failures) reads := by
  have hbatch' : ({ r with reads } : Repl).config.interactive = false := hbatch
  have hturn : ({ r with reads } : Repl).turn failedReads ⟨segment ++ [Bytes.newline], none⟩ =
      turnOf false (evalNext r reads segment) := by
    rw [evalNext, ← stripped_newline segment]
    exact turn_batch hbatch' failedReads _ false
  rw [loop]
  simp only [hturn]
  obtain ⟨ending, after⟩ := evalNext r reads segment
  cases ending <;> rfl

theorem loop_last {r : Repl} (hbatch : r.config.interactive = false) (failedReads : Nat)
    (failures : List Failure) (last : Bytes) :
    r.loop failedReads failures (readsOf [last]) =
      match evalNext r [] last with
      | (.crashed message, after) => ⟨.crashed message, failures.reverse, after⟩
      | (.finished failure, after) =>
          ⟨.stopped .inputEnded, failures.reverse ++ failure.toList, after⟩ := by
  have hbatch' : ({ r with reads := [] } : Repl).config.interactive = false := hbatch
  have hturn : ({ r with reads := [] } : Repl).turn failedReads ⟨last, some .endOfInput⟩ =
      turnOf true (evalNext r [] last) := turn_batch hbatch' failedReads last true
  -- An empty last segment has no read of its own: the loop gets it behind the last item.
  have hloop : r.loop failedReads failures (readsOf [last]) =
      lastTurn (turnOf true (evalNext r [] last)) failures := by
    by_cases hlast : last = []
    · rw [← hturn, readsOf, if_pos hlast, loop, hlast]
      rfl
    · rw [readsOf, if_neg hlast, loop]
      simp only [hturn]
      obtain ⟨ending, after⟩ := evalNext r [] last
      cases ending <;> rfl
  rw [hloop]
  obtain ⟨ending, after⟩ := evalNext r [] last
  cases ending <;> simp [turnOf, lastTurn]

/-! ## Whole runs -/

def forget (run : Run) : Run :=
  { run with repl := unread run.repl }

theorem loop_readsOf {segs : List Bytes} (hsegs : segs ≠ []) {r : Repl}
    (hbatch : r.config.interactive = false) (failedReads : Nat) (failures : List Failure) :
    forget (r.loop failedReads failures (readsOf segs)) =
      let run := evalSegments (unread r) (r.line + 1) segs
      { run with failures := failures.reverse ++ run.failures } := by
  induction segs generalizing r failedReads failures with
  | nil => exact absurd rfl hsegs
  | cons segment rest ih =>
      cases rest with
      | nil =>
          rw [loop_last hbatch, evalSegments_cons r []]
          obtain ⟨ending, after⟩ := evalNext r [] segment
          cases ending <;> simp [forget, evalSegments]
      | cons next rest =>
          have hne : next :: rest ≠ [] := List.cons_ne_nil next rest
          have hconfig := (evalNext_frame r (readsOf (next :: rest)) segment).1
          rw [readsOf_cons segment hne, loop_cons hbatch,
            evalSegments_cons r (readsOf (next :: rest))]
          generalize evalNext r (readsOf (next :: rest)) segment = result at hconfig ⊢
          obtain ⟨ending, after⟩ := result
          cases ending with
          | crashed message => simp [forget]
          | finished failure =>
              have hafter : after.config.interactive = false := by
                rw [← hbatch, ← hconfig]
              simp only
              rw [ih hne hafter]
              simp

/-- A run without dialogue over an input of data alone does what the rule says with the segments of
the input, numbered from where the loop stands: it writes the same, fails with the same failures in
the same order, and leaves engine and evaluations the same.  Hence how the input was cut into items
makes no difference. -/
theorem run_eq_evalSegments (r : Repl) (items : List Bytes)
    (hbatch : r.config.interactive = false)
    (hquiet : ¬ List.replicate Read.idleLimit [] <:+: items) :
    let run (items : List Bytes) := Repl.run { r with reads := Read.ofItems (items.map .data) }
    forget (run items) = evalSegments (unread r) (r.line + 1) (segments items.flatten) ∧
    ∀ others : List Bytes, ¬ List.replicate Read.idleLimit [] <:+: others →
      others.flatten = items.flatten → run others = run items := by
  intro run
  have hrun : ∀ reads : List Read, Repl.run { r with reads } = { r with reads }.loop 0 [] reads := by
    intro reads
    simp [Repl.run, greet, hbatch]
  refine ⟨?_, ?_⟩
  · have hbatch' : ({ r with reads := readsOf (segments items.flatten) } : Repl).config.interactive =
        false := hbatch
    have hloop := loop_readsOf (segments_ne_nil items.flatten) hbatch' 0 []
    simp only [run, hrun, ofItems_data hquiet]
    rw [hloop]
    rfl
  · intro others hothers hflatten
    simp only [run, ofItems_data hquiet, ofItems_data hothers, hflatten]

/-- Three segments: the first is cut in front of its newline, the second is blank, and the last one
has no newline.  Two programs are run, and their values are what is written. -/
theorem run_eq_evalSegments_cut_lines :
    let r : Repl :=
      { config := { interactive := false }
        engine := .on .emulate (.standard false)
        reads := []
        console := { sink := .unlimited } }
    let items := [Bytes.ofAscii "+\r", Bytes.ofAscii "\n \n", [], Bytes.ofAscii "*-"]
    let run := Repl.run { r with reads := Read.ofItems (items.map .data) }
    let rule := evalSegments r 1 [Bytes.ofAscii "+\r", Bytes.ofAscii " ", Bytes.ofAscii "*-"]
    r.config.interactive = false ∧ ¬ List.replicate Read.idleLimit [] <:+: items ∧
    forget run = rule ∧ run.repl.console.output = Bytes.ofAscii "1\n-1\n" ∧
    rule.repl.console.output = Bytes.ofAscii "1\n-1\n" ∧
    run.repl.evaluations.map (·.line) = [3, 1] := by
  intro r items run rule
  have hrule : forget run = rule := (run_eq_evalSegments r items rfl (by decide)).1
  have houtput : run.repl.console.output = Bytes.ofAscii "1\n-1\n" := by decide
  refine ⟨rfl, by decide, hrule, houtput, ?_, by decide⟩
  rw [← hrule]
  exact houtput

end Accumulator.Proofs.Batch
