import Accumulator.Executor.Script
import Accumulator.Proofs.Courses
/-!
# The failures of a run, in order

On a console that accepts everything, a run returns failed reads and failed programs, each under the
number of its read, so that the numbers rise.  Three failed reads in a row make the loop give up; as
they end the run, such a row stands at the end of the list or nowhere.
-/

namespace Accumulator.Proofs.NumberedFailures

open Courses Evaluating Repl Turns

/-! ## Failures and the reads they belong to -/

/-- The failures that some reads leave, when so many reads were made before them: one for a read that
failed, and at most one for a read that hands over a line. -/
inductive Noted : Nat → List Read → List Failure → Prop where
  | done (count : Nat) : Noted count [] []
  | failedRead {count : Nat} {read : Read} {made : List Read} {failures : List Failure} (f : Failure)
      (hread : read.failure = some f) (hend : f.isEnd = false)
      (hrest : Noted (count + 1) made failures) :
      Noted count (read :: made) (.reading (count + 1) f :: failures)
  | nothing {count : Nat} {read : Read} {made : List Read} {failures : List Failure}
      (hread : isFailed read = false) (hrest : Noted (count + 1) made failures) :
      Noted count (read :: made) failures
  | failedProgram {count : Nat} {read : Read} {made : List Read} {failures : List Failure}
      (f : Failure) (hread : isFailed read = false) (hrest : Noted (count + 1) made failures) :
      Noted count (read :: made) (.program (count + 1) (trimLineEnd read.text) f :: failures)

def Belongs (number : Nat) (read : Read) (failure : Failure) : Prop :=
  (∃ f, read.failure = some f ∧ f.isEnd = false ∧ failure = .reading number f) ∨
    (isFailed read = false ∧ ∃ f, failure = .program number (trimLineEnd read.text) f)

def lineOf : Failure → Nat
  | .reading line _ => line
  | .program line _ _ => line
  | _ => 0

def isReading : Failure → Bool
  | .reading .. => true
  | _ => false

def readFailure? (read : Read) (number : Nat) : Option Failure :=
  (read.failure.filter fun f => !f.isEnd).map (.reading number)

def readFailures (count : Nat) (made : List Read) : List Failure :=
  (made.zipIdx (count + 1)).filterMap fun numbered => readFailure? numbered.1 numbered.2

theorem Belongs.lineOf_eq {number : Nat} {read : Read} {failure : Failure}
    (hbelongs : Belongs number read failure) : lineOf failure = number := by
  rcases hbelongs with ⟨f, _, _, rfl⟩ | ⟨_, f, rfl⟩
  · rfl
  · rfl

theorem Noted.cons {count : Nat} {read : Read} {made : List Read} {here rest : List Failure}
    (hhere : Noted count [read] here) (hrest : Noted (count + 1) made rest) :
    Noted count (read :: made) (here ++ rest) := by
  cases hhere with
  | failedRead f hread hend hnil =>
      cases hnil
      exact .failedRead f hread hend hrest
  | nothing hread hnil =>
      cases hnil
      exact .nothing hread hrest
  | failedProgram f hread hnil =>
      cases hnil
      exact .failedProgram f hread hrest

theorem Noted.belongs {count : Nat} {made : List Read} {failures : List Failure}
    (hnoted : Noted count made failures) :
    ∀ failure ∈ failures, ∃ k read, made[k]? = some read ∧ Belongs (count + k + 1) read failure := by
  have hlater : ∀ {count : Nat} {read : Read} {made : List Read} {failure : Failure},
      (∃ k read, made[k]? = some read ∧ Belongs (count + 1 + k + 1) read failure) →
      ∃ k other, (read :: made)[k]? = some other ∧ Belongs (count + k + 1) other failure := by
    rintro count read made failure ⟨k, other, hother, hbelongs⟩
    refine ⟨k + 1, other, hother, ?_⟩
    rw [show count + (k + 1) + 1 = count + 1 + k + 1 by omega]
    exact hbelongs
  induction hnoted with
  | done => exact nofun
  | @failedRead count read made failures f hread hend _ ih =>
      intro failure hmem
      rcases List.mem_cons.1 hmem with rfl | hmem
      · exact ⟨0, read, rfl, .inl ⟨f, hread, hend, rfl⟩⟩
      · exact hlater (ih failure hmem)
  | nothing _ _ ih =>
      intro failure hmem
      exact hlater (ih failure hmem)
  | @failedProgram count read made failures f hread _ ih =>
      intro failure hmem
      rcases List.mem_cons.1 hmem with rfl | hmem
      · exact ⟨0, read, rfl, .inr ⟨hread, f, rfl⟩⟩
      · exact hlater (ih failure hmem)

theorem Noted.lt_lineOf {count : Nat} {made : List Read} {failures : List Failure}
    (hnoted : Noted count made failures) : ∀ failure ∈ failures, count < lineOf failure := by
  intro failure hmem
  obtain ⟨k, read, _, hbelongs⟩ := hnoted.belongs failure hmem
  rw [hbelongs.lineOf_eq]
  omega

theorem Noted.pairwise {count : Nat} {made : List Read} {failures : List Failure}
    (hnoted : Noted count made failures) :
    failures.Pairwise fun f g => lineOf f < lineOf g := by
  induction hnoted with
  | done => exact .nil
  | failedRead f _ _ hrest ih => exact .cons hrest.lt_lineOf ih
  | nothing _ _ ih => exact ih
  | failedProgram f _ hrest ih => exact .cons hrest.lt_lineOf ih

theorem readFailure?_of_failure {read : Read} {f : Failure} (hread : read.failure = some f)
    (hend : f.isEnd = false) (number : Nat) : readFailure? read number = some (.reading number f) := by
  simp [readFailure?, hread, hend, Option.filter]

theorem readFailure?_of_handed {read : Read} (hread : isFailed read = false) (number : Nat) :
    readFailure? read number = none := by
  unfold isFailed at hread
  cases hfailure : read.failure with
  | none => simp [readFailure?, hfailure]
  | some f =>
      rw [hfailure] at hread
      simpa [readFailure?, hfailure] using hread

theorem readFailures_cons (count : Nat) (read : Read) (made : List Read) :
    readFailures count (read :: made) =
      (readFailure? read (count + 1)).toList ++ readFailures (count + 1) made := by
  rw [readFailures, List.zipIdx_cons, List.filterMap_cons]
  cases hfailure : readFailure? read (count + 1) with
  | none => simp [readFailures]
  | some f => simp [readFailures]

theorem Noted.filter_isReading {count : Nat} {made : List Read} {failures : List Failure}
    (hnoted : Noted count made failures) :
    failures.filter isReading = readFailures count made := by
  induction hnoted with
  | done => rfl
  | failedRead f hread hend _ ih =>
      rw [readFailures_cons, readFailure?_of_failure hread hend, ← ih]
      rfl
  | nothing hread _ ih =>
      rw [readFailures_cons, readFailure?_of_handed hread, ← ih]
      rfl
  | failedProgram f hread _ ih =>
      rw [readFailures_cons, readFailure?_of_handed hread, ← ih]
      rfl

/-! ## What a turn notes -/

theorem noted_step {r : Repl} (haccepts : Accepts r.console) (failedReads : Nat) :
    Noted r.line [nextRead r] (step r failedReads).failures := by
  have hdoes := does_step r failedReads
  cases hread : isFailed (nextRead r) with
  | true =>
      obtain ⟨f, hfailure, hend⟩ := exists_failure_of_isFailed hread
      rw [hdoes.readFailed f hfailure hend]
      exact .failedRead f hfailure hend (.done _)
  | false =>
      rw [hdoes.failures haccepts hread]
      cases hreturned : (evaluated r (nextRead r)).bind (returnedBy r.config.format) with
      | none => exact .nothing hread (.done _)
      | some failure =>
          obtain ⟨ev, hnew, hfailure⟩ := Option.bind_eq_some_iff.1 hreturned
          obtain ⟨f, _, rfl⟩ := of_returnedBy_eq_some hfailure
          rw [evaluated_eq_some hnew]
          exact .failedProgram f hread (.done _)

theorem noted_course {r : Repl} (haccepts : Accepts r.console) {failedReads : Nat}
    {made : List Read} {failures : List Failure} {t : Turn}
    (hcourse : Course r failedReads made failures t) : Noted r.line made failures := by
  induction hcourse with
  | last r failedReads => exact noted_step haccepts failedReads
  | @more r failedReads n made failures t _ _ ih =>
      have hrest := ih (accepts_step haccepts failedReads)
      rw [line_step] at hrest
      exact (noted_step haccepts failedReads).cons hrest

/-! ## Failed reads in a row -/

/-- So many failed reads in a row that the loop gives up. -/
def giveUp : List Bool :=
  List.replicate readFailureLimit true

theorem giveUp_eq : giveUp = [true, true, true] := rfl

theorem lt_readFailureLimit {n : Nat} (hn : n < readFailureLimit) : n = 0 ∨ n = 1 ∨ n = 2 := by
  have hlimit : readFailureLimit = 3 := rfl
  omega

theorem giveUp_infix_anew {n : Nat} (hn : n < readFailureLimit) (flags : List Bool) :
    giveUp <:+: List.replicate n true ++ false :: flags ↔ giveUp <:+: flags := by
  rw [giveUp_eq]
  rcases lt_readFailureLimit hn with rfl | rfl | rfl
  all_goals simp [List.infix_cons_iff, List.cons_prefix_cons]

theorem giveUp_not_infix_replicate {n : Nat} (hn : n < readFailureLimit) :
    ¬ giveUp <:+: List.replicate n true := by
  intro hrow
  have hlength := hrow.length_le
  rw [giveUp, List.length_replicate, List.length_replicate] at hlength
  omega

theorem giveUp_infix_concat {n : Nat} (hn : n < readFailureLimit) (flag : Bool) :
    giveUp <:+: List.replicate n true ++ [flag] ↔ flag = true ∧ readFailureLimit ≤ n + 1 := by
  rcases lt_readFailureLimit hn with rfl | rfl | rfl
  all_goals cases flag <;> decide

theorem nextAfter_eq_goOn {r : Repl} {failedReads n : Nat} {read : Read}
    (hgoes : nextAfter r failedReads read = .goOn n) :
    (isFailed read = true ∧ failedReads + 1 < readFailureLimit ∧ n = failedReads + 1) ∨
      (isFailed read = false ∧ n = 0) := by
  unfold nextAfter at hgoes
  cases hread : isFailed read with
  | true =>
      rw [hread, if_pos rfl] at hgoes
      split at hgoes
      · cases hgoes
      · cases hgoes
        exact .inl ⟨rfl, by omega, rfl⟩
  | false =>
      rw [hread, if_neg Bool.false_ne_true] at hgoes
      split at hgoes
      · cases hgoes
      · split at hgoes
        · cases hgoes
        · cases hgoes
          exact .inr ⟨rfl, rfl⟩

theorem nextAfter_eq_readsFailed {r : Repl} {failedReads : Nat} {read : Read} :
    nextAfter r failedReads read = .stop .readsFailed ↔
      isFailed read = true ∧ readFailureLimit ≤ failedReads + 1 := by
  unfold nextAfter
  cases hread : isFailed read with
  | true => simp
  | false =>
      rw [if_neg Bool.false_ne_true]
      split
      · simp
      · split <;> simp

theorem readsFailed_iff_of_stop {r : Repl} {failedReads : Nat} {read : Read} {reason : Stop}
    (hstops : nextAfter r failedReads read = .stop reason) :
    reason = .readsFailed ↔ isLast read = false ∧ quits r read = false := by
  cases hread : isFailed read with
  | true =>
      have hlast : isLast read = false := by
        cases hlast : isLast read with
        | false => rfl
        | true => exact absurd (isFailed_of_isLast hlast) (by simp [hread])
      have hquits : quits r read = false := by simp [quits, hread]
      rw [nextAfter, hread, if_pos rfl] at hstops
      split at hstops
      · cases hstops
        exact ⟨fun _ => ⟨hlast, hquits⟩, fun _ => rfl⟩
      · cases hstops
  | false =>
      rw [nextAfter, hread, if_neg Bool.false_ne_true] at hstops
      cases hquits : quits r read with
      | true =>
          rw [hquits, if_pos rfl] at hstops
          cases hstops
          simp
      | false =>
          rw [hquits, if_neg Bool.false_ne_true] at hstops
          cases hlast : isLast read with
          | true =>
              rw [hlast, if_pos rfl] at hstops
              cases hstops
              simp
          | false =>
              rw [hlast, if_neg Bool.false_ne_true] at hstops
              cases hstops

/-- The loop gives up after so many failed reads in a row, and not before: without its last read, a
course holds no such row. -/
theorem giveUp_course {r : Repl} {failedReads : Nat} {made : List Read} {failures : List Failure}
    {t : Turn} (hcourse : Course r failedReads made failures t)
    (hgoes : ∀ message, t.next ≠ .crash message) (hcount : failedReads < readFailureLimit) :
    let flags := List.replicate failedReads true ++ made.map isFailed
    (t.next = .stop .readsFailed ↔ giveUp <:+: flags) ∧ ¬ giveUp <:+: flags.dropLast := by
  -- The failed reads before the course stand in front of its own as flags; alone they are too few
  -- for a row.
  induction hcourse with
  | last r failedReads =>
      have hnext : (step r failedReads).next = nextAfter r failedReads (nextRead r) := by
        rcases next_turn { r with reads := r.reads.tail } failedReads (nextRead r) with h | h
        · exact h
        · obtain ⟨message, hcrash⟩ := h
          exact absurd hcrash (hgoes message)
      constructor
      · rw [hnext, nextAfter_eq_readsFailed, List.map_singleton, giveUp_infix_concat hcount]
      · rw [List.map_singleton, List.dropLast_concat]
        exact giveUp_not_infix_replicate hcount
  | @more r failedReads n made failures t hnext hcourse ih =>
      have hmade : made.map isFailed ≠ [] := by simpa using hcourse.ne_nil
      rw [List.map_cons]
      rcases nextAfter_eq_goOn (nextAfter_of_goOn hnext) with ⟨hread, hless, rfl⟩ | ⟨hread, rfl⟩
      · have hflags : List.replicate failedReads true ++ isFailed (nextRead r) :: made.map isFailed =
            List.replicate (failedReads + 1) true ++ made.map isFailed := by
          rw [hread, List.replicate_succ', List.append_assoc, List.singleton_append]
        rw [hflags]
        exact ih hgoes hless
      · have hrest := ih hgoes (by decide)
        rw [List.replicate_zero, List.nil_append] at hrest
        rw [hread]
        constructor
        · rw [giveUp_infix_anew hcount, hrest.1]
        · rw [List.dropLast_append_of_ne_nil (List.cons_ne_nil _ _),
            List.dropLast_cons_of_ne_nil hmade, giveUp_infix_anew hcount]
          exact hrest.2

theorem giveUp_suffix {flags : List Bool} (hrow : giveUp <:+: flags)
    (hearly : ¬ giveUp <:+: flags.dropLast) : giveUp <:+ flags := by
  have hne : flags ≠ [] := by
    rintro rfl
    exact absurd hrow (by decide)
  have hsplit := List.dropLast_concat_getLast hne
  rw [← hsplit] at hrow ⊢
  exact (List.infix_concat_iff.1 hrow).resolve_right hearly

theorem infix_of_getElem? {flags : List Bool} {k : Nat} (h₀ : flags[k]? = some true)
    (h₁ : flags[k + 1]? = some true) (h₂ : flags[k + 2]? = some true)
    (hearly : ¬ giveUp <:+: flags.dropLast) : giveUp <:+: flags ∧ k + 3 = flags.length := by
  have hrow : giveUp <:+ flags.take (k + 3) := by
    refine ⟨flags.take k, ?_⟩
    rw [List.take_add_one, List.take_add_one, List.take_add_one, h₀, h₁, h₂, giveUp_eq]
    simp
  have hlength : k + 2 < flags.length := (List.getElem?_eq_some_iff.1 h₂).1
  refine ⟨hrow.isInfix.trans (List.take_prefix _ _).isInfix, ?_⟩
  rcases Nat.eq_or_lt_of_le (Nat.succ_le_of_lt hlength) with hend | hlater
  · exact hend
  · have hbefore : flags.take (k + 3) <+: flags.dropLast := by
      rw [List.dropLast_eq_take]
      exact List.take_prefix_take_left (by omega)
    exact absurd (hrow.isInfix.trans hbefore.isInfix) hearly

/-! ## The last failures -/

theorem Noted.append_inv {count : Nat} {made more : List Read} {failures : List Failure}
    (hnoted : Noted count (made ++ more) failures) :
    ∃ early late, failures = early ++ late ∧ Noted (count + made.length) more late := by
  induction made generalizing count failures with
  | nil => exact ⟨[], failures, rfl, hnoted⟩
  | cons read made ih =>
      rw [show count + (read :: made).length = count + 1 + made.length by simp; omega]
      cases hnoted with
      | failedRead f _ _ hrest =>
          obtain ⟨early, late, rfl, hlate⟩ := ih hrest
          exact ⟨_ :: early, late, rfl, hlate⟩
      | nothing _ hrest => exact ih hrest
      | failedProgram f _ hrest =>
          obtain ⟨early, late, rfl, hlate⟩ := ih hrest
          exact ⟨_ :: early, late, rfl, hlate⟩

theorem Noted.of_isFailed {count : Nat} {read : Read} {made : List Read} {failures : List Failure}
    (hnoted : Noted count (read :: made) failures) (hread : isFailed read = true) :
    ∃ f rest, failures = .reading (count + 1) f :: rest ∧ Noted (count + 1) made rest := by
  cases hnoted with
  | failedRead f _ _ hrest => exact ⟨f, _, rfl, hrest⟩
  | nothing hhanded =>
      rw [hhanded] at hread
      cases hread
  | failedProgram f hhanded =>
      rw [hhanded] at hread
      cases hread

theorem Noted.last_three {count : Nat} {made : List Read} {failures : List Failure}
    (hnoted : Noted count made failures) (hrow : giveUp <:+ made.map isFailed) :
    ∃ early f g h n, failures = early ++ [.reading n f, .reading (n + 1) g, .reading (n + 2) h] ∧
      n + 2 = count + made.length := by
  obtain ⟨row, ⟨front, rfl⟩, hflags⟩ := List.suffix_map_iff.1 hrow
  obtain ⟨a, rest, rfl, ha, hrest⟩ := List.map_eq_cons_iff.1 hflags.symm
  obtain ⟨b, rest, rfl, hb, hrest⟩ := List.map_eq_cons_iff.1 hrest
  obtain ⟨c, rest, rfl, hc, hrest⟩ := List.map_eq_cons_iff.1 hrest
  obtain rfl := List.map_eq_nil_iff.1 hrest
  obtain ⟨early, late, rfl, hlate⟩ := hnoted.append_inv
  obtain ⟨f, later, rfl, hlater⟩ := hlate.of_isFailed ha
  obtain ⟨g, last, rfl, hlast⟩ := hlater.of_isFailed hb
  obtain ⟨h, none, rfl, hnone⟩ := hlast.of_isFailed hc
  cases hnone
  refine ⟨early, f, g, h, count + front.length + 1, rfl, ?_⟩
  have hlength : (front ++ [a, b, c]).length = front.length + 3 := by simp
  omega

theorem Noted.failed_of_mem {count number : Nat} {made : List Read} {failures : List Failure}
    {f : Failure} (hnoted : Noted count made failures) (hmem : .reading number f ∈ failures) :
    ∃ k, number = count + k + 1 ∧ (made.map isFailed)[k]? = some true := by
  obtain ⟨k, read, hread, hbelongs⟩ := hnoted.belongs _ hmem
  refine ⟨k, ?_, ?_⟩
  · exact hbelongs.lineOf_eq
  · rcases hbelongs with ⟨g, hfailure, hend, _⟩ | ⟨_, g, hprogram⟩
    · rw [List.getElem?_map, hread, Option.map_some, isFailed_of_failure hfailure hend]
    · cases hprogram

/-! ## Runs -/

section Returned

variable {r : Repl} (haccepts : Accepts r.console)
  (hreturns : ∀ message, r.run.ending ≠ .crashed message)
include haccepts hreturns

theorem returned_run :
    (∃ t reason, Course r.greet 0 (readsMade r) r.run.failures t ∧ t.next = .stop reason ∧
      r.run.ending = .stopped reason) ∧
    Noted r.line (readsMade r) r.run.failures ∧
    (r.run.ending = .stopped .readsFailed ↔ giveUp <:+: (readsMade r).map isFailed) ∧
    ¬ giveUp <:+: ((readsMade r).map isFailed).dropLast := by
  obtain ⟨t, hcourse, hending, hrepl⟩ := course_run r
  have hgoes : ∀ message, t.next ≠ .crash message := by
    intro message hcrash
    rw [hending, hcrash] at hreturns
    exact hreturns message rfl
  have hstart : Accepts r.greet.console := (keeps_greet r).console.accepts haccepts
  have hnoted := noted_course hstart hcourse
  obtain ⟨hrow, hearly⟩ := giveUp_course hcourse hgoes (by decide)
  rw [line_greet] at hnoted
  rw [List.replicate_zero, List.nil_append] at hrow hearly
  rw [← hrow, hending]
  cases hnext : t.next with
  | goOn n => exact absurd hnext hcourse.stops
  | crash message => exact absurd hnext (hgoes message)
  | stop reason => exact ⟨⟨t, reason, hcourse, hnext, rfl⟩, hnoted, by simp [endOf], hearly⟩

end Returned

/-- On a console that accepts everything, a run in which no program crashes takes turns until one of
them stops, and returns for the reason that this turn gives, after at most one read behind those that
are left.  Its failures are failed reads and failed programs under the numbers
of their reads, which rise; there is exactly one for each read that failed.  The run stops before the
end of the input and without being told to quit exactly if three reads in a row failed.  Then these
are its last failures, and nowhere else does it return three failed reads in a row. -/
theorem failures_in_order (r : Repl) (haccepts : Accepts r.console)
    (hreturns : ∀ message, r.run.ending ≠ .crashed message) :
    let made := readsMade r
    let line := r.run.repl.line
    let failures := r.run.failures
    let gaveUp := giveUp <:+: made.map isFailed
    (∃ t reason, Course r.greet 0 made failures t ∧ t.next = .stop reason ∧
      r.run.ending = .stopped reason) ∧
    (made <+: r.reads ++ [.atEnd] ∧ r.run.repl.reads = r.reads.drop made.length ∧
      line = r.line + made.length) ∧
    failures.Pairwise (fun f g => lineOf f < lineOf g) ∧
    (∀ failure ∈ failures, ∃ k read, made[k]? = some read ∧
      Belongs (r.line + k + 1) read failure) ∧
    failures.filter isReading = readFailures r.line made ∧
    (gaveUp ↔ r.run.ending = .stopped .readsFailed) ∧
    (gaveUp ↔ ∃ last, made.getLast? = some last ∧ isLast last = false ∧ quits r last = false) ∧
    (gaveUp → ∃ early f g h n,
      failures = early ++ [.reading n f, .reading (n + 1) g, .reading (n + 2) h] ∧ n + 2 = line) ∧
    ∀ n f g h, .reading n f ∈ failures → .reading (n + 1) g ∈ failures →
      .reading (n + 2) h ∈ failures → gaveUp ∧ n + 2 = line := by
  intro made line failures gaveUp
  obtain ⟨⟨t, reason, hcourse, hstop, hreason⟩, hnoted, (hrow : _ ↔ gaveUp), hearly⟩ :=
    returned_run haccepts hreturns
  have hline : line = r.line + made.length := line_run r
  refine ⟨⟨t, reason, hcourse, hstop, hreason⟩, ⟨readsMade_within r, reads_run r, hline⟩,
    hnoted.pairwise, hnoted.belongs, hnoted.filter_isReading, hrow.symm, ?_, ?_, ?_⟩
  · obtain ⟨last, n, hlast, hstops⟩ := ending_run r
    have hiff := readsFailed_iff_of_stop (hstops reason hreason)
    have hgave : gaveUp ↔ reason = .readsFailed := by
      rw [hreason] at hrow
      rw [← hrow]
      simp
    rw [hgave, hiff]
    simp [made, hlast]
  · intro hgave
    obtain ⟨early, f, g, h, n, hfailures, hn⟩ :=
      hnoted.last_three (giveUp_suffix hgave hearly)
    exact ⟨early, f, g, h, n, hfailures, hn.trans hline.symm⟩
  · intro n f g h hf hg hh
    obtain ⟨k, hk, h₀⟩ := hnoted.failed_of_mem hf
    obtain ⟨k₁, hk₁, h₁⟩ := hnoted.failed_of_mem hg
    obtain ⟨k₂, hk₂, h₂⟩ := hnoted.failed_of_mem hh
    obtain rfl : k₁ = k + 1 := by omega
    obtain rfl : k₂ = k + 2 := by omega
    obtain ⟨hgave, hend⟩ := infix_of_getElem? h₀ h₁ h₂ hearly
    have hlength : k + 3 = made.length := by rw [hend, List.length_map]
    exact ⟨hgave, by omega⟩

/-- A failed read, a program that fails, two failed reads, a program, and then three failed reads, at
which the loop gives up.  It does not come to the last program. -/
theorem failures_in_order_gives_up :
    let f : Failure := .plain (Bytes.ofAscii "device busy")
    let g : Failure := .plain (Bytes.ofAscii "no memory")
    let r : Repl :=
      { config := { interactive := false }
        engine := .on .native (.scripted [{ acquireFailure := g }] true fun _ => .returned 0)
        reads := Read.ofItems
          [.failure f, .data (Bytes.ofAscii "+\n"), .failure f, .data (Bytes.ofAscii "*"),
            .failure f, .data (Bytes.ofAscii "-\n"), .failure f, .failure f, .failure f,
            .data (Bytes.ofAscii "*\n")]
        console := { sink := .unlimited } }
    Accepts r.console ∧ (∀ message, r.run.ending ≠ .crashed message) ∧
    r.run.failures =
      [.reading 1 f, .program 2 (Bytes.ofAscii "+") g, .reading 3 f, .reading 4 f, .reading 6 f,
        .reading 7 f, .reading 8 f] ∧
    r.run.failures.Pairwise (fun f g => lineOf f < lineOf g) ∧
    giveUp <:+: (readsMade r).map isFailed := by
  intro f g r
  have haccepts : Accepts r.console := fun _ _ _ => rfl
  have hending : r.run.ending = .stopped .readsFailed := by decide
  have hreturns : ∀ message, r.run.ending ≠ .crashed message := by
    intro message
    rw [hending]
    exact nofun
  obtain ⟨-, -, hordered, -, -, hgave, -⟩ := failures_in_order r haccepts hreturns
  exact ⟨haccepts, hreturns, by decide, hordered, hgave.2 hending⟩

end Accumulator.Proofs.NumberedFailures
