import Accumulator.Proofs.Batch
import Accumulator.Proofs.Courses
import Mathlib.Data.List.DropRight
/-!
# Lines that a failed read breaks

A read that fails drops the bytes it has gathered, and the next read begins in the middle of the line.
So what becomes of a line depends on the failures in it: the bytes behind the last one are taken for
the line, and run.  A line without a failure in it is run whole.
-/

namespace Accumulator.Proofs.BrokenLines

open Batch Courses Evaluating Read Reading Repl Turns

/-! ## Lines with failures in them -/

/-- What a reader meets: a byte, or a failed read. -/
abbrev Signal := Option UInt8

/-- The signals of an input, when `idle` empty items came before it. -/
def signals (idle : Nat) : List Item → List Signal
  | [] => []
  | .data [] :: items =>
      if idle + 1 = idleLimit then none :: signals 0 items else signals (idle + 1) items
  | .data (b :: bytes) :: items => (b :: bytes).map some ++ signals 0 items
  | .failure _ :: items => none :: signals 0 items

def brokenLines (items : List Item) : List (List Signal) :=
  (signals 0 items).splitOn (some Bytes.newline)

def whole (line : List Signal) : Bytes :=
  line.filterMap id

/-- The bytes of a line behind the last failure in it. -/
def lastPart (line : List Signal) : Bytes :=
  whole (line.rtakeWhile Option.isSome)

def dataOf (items : List Item) : Bytes :=
  items.flatMap fun
    | .data bytes => bytes
    | .failure _ => []

theorem whole_map_some (bytes : Bytes) : whole (bytes.map some) = bytes := by
  simp [whole]

theorem whole_append (a b : List Signal) : whole (a ++ b) = whole a ++ whole b :=
  List.filterMap_append

theorem lastPart_suffix (line : List Signal) : lastPart line <:+ whole line :=
  (List.rtakeWhile_suffix _ line).filterMap id

theorem lastPart_of_unbroken {line : List Signal} (hline : none ∉ line) :
    lastPart line = whole line := by
  have hall : ∀ signal ∈ line, Option.isSome signal = true := by
    intro signal hmem
    cases signal with
    | none => exact absurd hmem hline
    | some b => rfl
  rw [lastPart, List.rtakeWhile_eq_self_iff.2 hall]

theorem lastPart_map_some (bytes : Bytes) : lastPart (bytes.map some) = bytes := by
  rw [lastPart_of_unbroken (by simp), whole_map_some]

theorem lastPart_append_none (before line : List Signal) :
    lastPart (before ++ none :: line) = lastPart line := by
  unfold lastPart
  induction line using List.reverseRecOn with
  | nil =>
      rw [List.rtakeWhile_concat_neg _ _ _ (by simp)]
      rfl
  | append_singleton line signal ih =>
      rw [← List.cons_append, ← List.append_assoc, List.rtakeWhile_concat, List.rtakeWhile_concat]
      split
      · rw [whole_append, whole_append, ih]
      · rfl

theorem whole_signals (idle : Nat) (items : List Item) :
    whole (signals idle items) = dataOf items := by
  induction items generalizing idle with
  | nil => rfl
  | cons item items ih =>
      cases item with
      | failure f => exact ih 0
      | data bytes =>
          cases bytes with
          | nil =>
              rw [signals]
              split
              · exact ih 0
              · exact ih (idle + 1)
          | cons b bytes =>
              have hsplit : whole (signals idle (.data (b :: bytes) :: items)) =
                  whole ((b :: bytes).map some) ++ whole (signals 0 items) := whole_append _ _
              rw [hsplit, whole_map_some, ih]
              rfl

theorem map_whole_splitOn (line : List Signal) :
    (line.splitOn (some Bytes.newline)).map whole = segments (whole line) := by
  induction line with
  | nil => rfl
  | cons signal line ih =>
      rw [List.splitOn_cons_eq_if_modifyHead]
      by_cases hnewline : signal = some Bytes.newline
      · subst hnewline
        have hwhole : whole (some Bytes.newline :: line) = Bytes.newline :: whole line := rfl
        rw [if_pos (beq_self_eq_true _), List.map_cons, ih, hwhole, segments_newline]
        rfl
      · rw [if_neg (by simpa using hnewline)]
        cases signal with
        | none =>
            have hwhole : whole (none :: line) = whole line := rfl
            rw [hwhole, ← ih]
            cases line.splitOn (some Bytes.newline) <;> rfl
        | some b =>
            have hb : b ≠ Bytes.newline := fun h => hnewline (congrArg some h)
            have hwhole : whole (some b :: line) = b :: whole line := rfl
            rw [hwhole, segments_cons hb, ← ih]
            cases line.splitOn (some Bytes.newline) <;> rfl

theorem map_whole_brokenLines (items : List Item) :
    (brokenLines items).map whole = segments (dataOf items) := by
  rw [brokenLines, map_whole_splitOn, whole_signals]

/-! ## The programs of some reads -/

def programs (r : Repl) (reads : List Read) : List Bytes :=
  ((reads.filter fun read => !isFailed read).map fun read => trimLineEnd read.text).filter
    (isProgram r)

theorem programs_append (r : Repl) (a b : List Read) :
    programs r (a ++ b) = programs r a ++ programs r b := by
  simp [programs]

def programsBehind (r : Repl) (line : List Signal) : List Bytes :=
  ((line.splitOn (some Bytes.newline)).map fun line => trimLineEnd (lastPart line)).filter
    (isProgram r)

/-- The programs of the reads that are done and of those to come, if these meet the given signals. -/
def outlook (r : Repl) (state : Pending × List Read) (rest : List Signal) : List Bytes :=
  programs r state.2.reverse ++ programsBehind r (state.1.gathered.reverse.map some ++ rest)

theorem outlook_nil_of_finish (r : Repl) {state : Pending × List Read}
    (hgathered : Bytes.newline ∉ state.1.gathered) :
    programs r (finish state) = outlook r state [] := by
  obtain ⟨p, done⟩ := state
  have hsplit : programsBehind r (p.gathered.reverse.map some) =
      [trimLineEnd p.gathered.reverse].filter (isProgram r) := by
    rw [programsBehind, List.splitOn_eq_singleton (by simpa using hgathered), List.map_singleton,
      lastPart_map_some]
  rw [outlook, List.append_nil, hsplit, finish, List.reverse_append, programs_append]
  congr 1
  by_cases hempty : p.gathered = []
  · have hblank : isProgram r (trimLineEnd []) = false := isProgram_nil r
    simp [hempty, programs, hblank]
  · simp [hempty, programs, Pending.cut, isFailed, Failure.isEnd, Failure.chain]

theorem splitOn_append_of_not_mem {separator : Signal} {before : List Signal}
    (hbefore : separator ∉ before) (rest : List Signal) :
    (before ++ rest).splitOn separator = (rest.splitOn separator).modifyHead (before ++ ·) := by
  induction before with
  | nil =>
      rw [List.nil_append]
      cases rest.splitOn separator <;> rfl
  | cons signal before ih =>
      have hsignal : signal ≠ separator := fun h => hbefore (h ▸ List.mem_cons_self)
      have hrest : separator ∉ before := fun h => hbefore (List.mem_cons_of_mem signal h)
      rw [List.cons_append, List.splitOn_cons_eq_if_modifyHead, if_neg (by simpa using hsignal),
        ih hrest, List.modifyHead_modifyHead]
      rfl

theorem programsBehind_none (r : Repl) {before : Bytes} (hbefore : Bytes.newline ∉ before)
    (rest : List Signal) :
    programsBehind r (before.map some ++ none :: rest) = programsBehind r rest := by
  have hsplit : (before.map some ++ none :: rest).splitOn (some Bytes.newline) =
      (rest.splitOn (some Bytes.newline)).modifyHead (before.map some ++ none :: ·) := by
    rw [List.append_cons, splitOn_append_of_not_mem (by simpa using hbefore)]
    simp only [List.append_assoc, List.singleton_append]
  rw [programsBehind, hsplit, programsBehind]
  cases rest.splitOn (some Bytes.newline) with
  | nil => rfl
  | cons line lines => rw [List.modifyHead_cons, List.map_cons, List.map_cons, lastPart_append_none]

theorem programsBehind_newline (r : Repl) {before : Bytes} (hbefore : Bytes.newline ∉ before)
    (rest : List Signal) :
    programsBehind r (before.map some ++ some Bytes.newline :: rest) =
      [trimLineEnd before].filter (isProgram r) ++ programsBehind r rest := by
  rw [programsBehind, List.splitOn_append_cons_self_of_not_mem (by simpa using hbefore),
    List.map_cons, lastPart_map_some, ← List.singleton_append, List.filter_append]
  rfl

/-! ## The reader, signal by signal -/

theorem newline_not_mem_takeByte {state : Pending × List Read}
    (hgathered : Bytes.newline ∉ state.1.gathered) (b : UInt8) :
    Bytes.newline ∉ (takeByte state b).1.gathered := by
  unfold takeByte
  by_cases hb : b = Bytes.newline
  · simp [hb]
  · simpa [hb, hgathered] using fun h => hb h.symm

theorem outlook_takeByte (r : Repl) {state : Pending × List Read}
    (hgathered : Bytes.newline ∉ state.1.gathered) (b : UInt8) (rest : List Signal) :
    outlook r (takeByte state b) rest = outlook r state (some b :: rest) := by
  obtain ⟨p, done⟩ := state
  by_cases hb : b = Bytes.newline
  · have htake : takeByte (p, done) b =
        ({}, ⟨p.gathered.reverse ++ [Bytes.newline], none⟩ :: done) := by
      simp [takeByte, hb]
    have hread : programs r [⟨p.gathered.reverse ++ [Bytes.newline], none⟩] =
        [trimLineEnd p.gathered.reverse].filter (isProgram r) := by
      rw [trimLineEnd_eq_stripped, ← stripped_newline]
      rfl
    rw [htake, hb, outlook, outlook, programsBehind_newline r (by simpa using hgathered),
      List.reverse_cons, programs_append, hread, List.append_assoc]
    rfl
  · have htake : takeByte (p, done) b = ({ gathered := b :: p.gathered }, done) := by
      simp [takeByte, hb]
    rw [htake, outlook, outlook]
    simp

theorem outlook_foldl_takeByte (r : Repl) {state : Pending × List Read}
    (hgathered : Bytes.newline ∉ state.1.gathered) (bytes : Bytes) (rest : List Signal) :
    Bytes.newline ∉ (bytes.foldl takeByte state).1.gathered ∧
      outlook r (bytes.foldl takeByte state) rest = outlook r state (bytes.map some ++ rest) := by
  induction bytes generalizing state with
  | nil => exact ⟨hgathered, rfl⟩
  | cons b bytes ih =>
      obtain ⟨hnext, hbytes⟩ := ih (newline_not_mem_takeByte hgathered b)
      refine ⟨hnext, ?_⟩
      rw [List.foldl_cons, hbytes, outlook_takeByte r hgathered]
      rfl

theorem outlook_cut (r : Repl) {p : Pending} (hgathered : Bytes.newline ∉ p.gathered)
    (done : List Read) {f : Failure} (hf : f.isEnd = false) (rest : List Signal) :
    outlook r ({}, p.cut f :: done) rest = outlook r (p, done) (none :: rest) := by
  have hread : programs r [p.cut f] = [] := by simp [programs, isFailed, Pending.cut, hf]
  rw [outlook, outlook, programsBehind_none r (by simpa using hgathered), List.reverse_cons,
    programs_append, hread, List.append_nil]
  rfl

/-- The reader loses what stands before a failure, and hands over everything else line by line. -/
theorem outlook_foldl_takeItem (r : Repl) {items : List Item}
    (hitems : ∀ f, .failure f ∈ items → f.isEnd = false) {state : Pending × List Read}
    (hgathered : Bytes.newline ∉ state.1.gathered) :
    programs r (finish (items.foldl takeItem state)) =
      outlook r state (signals state.1.idle items) := by
  -- Taking an item changes the state, but not its outlook with the signals of the item still to come.
  induction items generalizing state with
  | nil => exact outlook_nil_of_finish r hgathered
  | cons item items ih =>
      have hrest : ∀ f, .failure f ∈ items → f.isEnd = false :=
        fun f hmem => hitems f (List.mem_cons_of_mem item hmem)
      rw [List.foldl_cons]
      cases item with
      | failure f =>
          have hf := hitems f List.mem_cons_self
          rw [takeItem, ih hrest (by simp), outlook_cut r hgathered _ hf]
          rfl
      | data bytes =>
          cases bytes with
          | nil =>
              rw [takeItem, signals]
              by_cases hidle : state.1.idle + 1 = idleLimit
              · rw [if_pos hidle, if_pos hidle, ih hrest (by simp),
                  outlook_cut r hgathered _ (by decide)]
              · rw [if_neg hidle, if_neg hidle]
                exact @ih hrest ({ state.1 with idle := state.1.idle + 1 }, state.2) hgathered
          | cons b bytes =>
              obtain ⟨hnext, hbytes⟩ :=
                outlook_foldl_takeByte r hgathered (b :: bytes) (signals 0 items)
              rw [takeItem_data _ (List.cons_ne_nil b bytes), ih hrest hnext,
                idle_foldl_takeByte, hbytes]
              rfl

theorem programs_ofItems (r : Repl) {items : List Item}
    (hitems : ∀ f, .failure f ∈ items → f.isEnd = false) :
    programs r (ofItems items) =
      ((brokenLines items).map fun line => trimLineEnd (lastPart line)).filter (isProgram r) := by
  have hstart : Bytes.newline ∉ (({}, []) : Pending × List Read).1.gathered := by simp
  rw [ofItems_eq_finish, outlook_foldl_takeItem r hitems hstart]
  rfl

/-! ## What a run evaluates -/

def sources (r : Repl) : List Bytes :=
  r.evaluations.reverse.map Evaluation.source

theorem sources_step (r : Repl) (failedReads : Nat) :
    sources (step r failedReads).repl = sources r ++ programs r [nextRead r] := by
  have hnew : programs r [nextRead r] =
      (evaluated r (nextRead r)).toList.map Evaluation.source := by
    unfold programs evaluated
    cases hfailed : isFailed (nextRead r) with
    | true => simp [hfailed]
    | false =>
        cases hprogram : isProgram r (trimLineEnd (nextRead r).text) with
        | true => simp [hfailed, hprogram, evaluationOf]
        | false => simp [hfailed, hprogram]
  rw [sources, (does_step r failedReads).evaluations, hnew, sources]
  cases evaluated r (nextRead r) <;> simp

theorem programs_congr {r s : Repl} (hinteractive : s.config.interactive = r.config.interactive)
    (reads : List Read) : programs s reads = programs r reads := by
  have hprogram : isProgram s = isProgram r := by
    funext line
    rw [isProgram, isProgram, readsCommand, readsCommand, hinteractive]
  rw [programs, programs, hprogram]

theorem sources_course {r : Repl} {failedReads : Nat} {made : List Read} {failures : List Failure}
    {t : Turn} (hcourse : Course r failedReads made failures t) :
    sources t.repl = sources r ++ programs r made := by
  induction hcourse with
  | last r failedReads => exact sources_step r failedReads
  | @more r failedReads n made failures t hgoes _ ih =>
      rw [ih, sources_step, programs_congr (interactive_step r failedReads), List.append_assoc,
        ← programs_append]
      rfl

theorem sources_run (r : Repl) : sources r.run.repl = sources r ++ programs r (readsMade r) := by
  obtain ⟨t, hcourse, _, hrepl⟩ := course_run r
  obtain ⟨console, hgreet⟩ := greet_frame r
  rw [hrepl, sources_course hcourse, hgreet]
  rfl

theorem isLast_takeByte {state : Pending × List Read}
    (hdone : ∀ read ∈ state.2, isLast read = false) (b : UInt8) :
    ∀ read ∈ (takeByte state b).2, isLast read = false := by
  unfold takeByte
  split
  · intro read hread
    rcases List.mem_cons.1 hread with rfl | hread
    · rfl
    · exact hdone read hread
  · exact hdone

theorem isLast_foldl_takeByte {state : Pending × List Read}
    (hdone : ∀ read ∈ state.2, isLast read = false) (bytes : Bytes) :
    ∀ read ∈ (bytes.foldl takeByte state).2, isLast read = false := by
  induction bytes generalizing state with
  | nil => exact hdone
  | cons b bytes ih => exact ih (isLast_takeByte hdone b)

theorem isLast_takeItem {state : Pending × List Read}
    (hdone : ∀ read ∈ state.2, isLast read = false) {item : Item}
    (hitem : ∀ f, item = .failure f → f.isEnd = false) :
    ∀ read ∈ (takeItem state item).2, isLast read = false := by
  have hcut : ∀ f : Failure, f.isEnd = false →
      ∀ read ∈ state.1.cut f :: state.2, isLast read = false := by
    intro f hf read hread
    rcases List.mem_cons.1 hread with rfl | hread
    · simpa [isLast, Pending.cut] using hf
    · exact hdone read hread
  cases item with
  | failure f => exact hcut f (hitem f rfl)
  | data bytes =>
      cases bytes with
      | nil =>
          rw [takeItem]
          split
          · exact hcut idleFailure (by decide)
          · exact hdone
      | cons b bytes =>
          rw [takeItem_data _ (List.cons_ne_nil b bytes)]
          exact isLast_foldl_takeByte hdone _

theorem isLast_foldl_takeItem {items : List Item}
    (hitems : ∀ f, .failure f ∈ items → f.isEnd = false) {state : Pending × List Read}
    (hdone : ∀ read ∈ state.2, isLast read = false) :
    ∀ read ∈ (items.foldl takeItem state).2, isLast read = false := by
  induction items generalizing state with
  | nil => exact hdone
  | cons item items ih =>
      apply ih
      · intro f hmem
        exact hitems f (List.mem_cons_of_mem item hmem)
      · apply isLast_takeItem hdone
        rintro f rfl
        exact hitems f List.mem_cons_self

theorem eq_of_isLast {items : List Item} (hitems : ∀ f, .failure f ∈ items → f.isEnd = false)
    {made : List Read} {last : Read} (hmade : made <+: ofItems items ++ [.atEnd])
    (hlast : made.getLast? = some last) (hends : isLast last = true) :
    made = ofItems items ++ [.atEnd] ∨ made = ofItems items := by
  have hdone : ∀ read ∈ (items.foldl takeItem ({}, [])).2, isLast read = false :=
    isLast_foldl_takeItem hitems nofun
  rcases List.prefix_concat_iff.1 hmade with hall | hreads
  · exact .inl hall
  · right
    rw [ofItems_eq_finish, finish, List.reverse_append] at hreads ⊢
    generalize items.foldl takeItem ({}, []) = state at hdone hreads ⊢
    have hearly : ¬ made <+: state.2.reverse := by
      intro hmade
      have hmem := hmade.mem (List.mem_of_getLast? hlast)
      rw [hdone last (List.mem_reverse.1 hmem)] at hends
      cases hends
    by_cases hempty : state.1.gathered = []
    · rw [if_pos hempty, List.reverse_nil, List.append_nil] at hreads
      exact absurd hreads hearly
    · rw [if_neg hempty, List.reverse_singleton] at hreads ⊢
      exact (List.prefix_concat_iff.1 hreads).resolve_right hearly

theorem programs_atEnd (r : Repl) : programs r [.atEnd] = [] := by
  have hread : programs r [.atEnd] = [[]].filter (isProgram r) := rfl
  rw [hread, List.filter_cons_of_neg (by simp [isProgram_nil]), List.filter_nil]

/-- Over an input of data and failed reads in any order, a run evaluates of each line what stands
behind the last failure in it, line after line, up to where it stops; a run to the end of the input
leaves none out.  What is evaluated is the whole line if no read failed in it. -/
theorem run_behind_failures (r : Repl) (items : List Item)
    (hitems : ∀ f, .failure f ∈ items → f.isEnd = false) :
    let run := Repl.run { r with reads := ofItems items }
    let lines := brokenLines items
    let wanted := (lines.map fun line => trimLineEnd (lastPart line)).filter (isProgram r)
    lines.map whole = segments (dataOf items) ∧
    (∀ line ∈ lines, lastPart line <:+ whole line ∧ (none ∉ line → lastPart line = whole line)) ∧
    ∃ evaluated, sources run.repl = sources r ++ evaluated ∧ evaluated <+: wanted ∧
      (run.ending = .stopped .inputEnded → evaluated = wanted) := by
  intro run lines wanted
  refine ⟨map_whole_brokenLines items, ?_, ?_⟩
  · intro line _
    exact ⟨lastPart_suffix line, lastPart_of_unbroken⟩
  · have hwanted : programs r (ofItems items) = wanted := programs_ofItems r hitems
    have hall : programs r (ofItems items ++ [.atEnd]) = wanted := by
      rw [programs_append, programs_atEnd, List.append_nil, hwanted]
    have hmade := readsMade_within { r with reads := ofItems items }
    refine ⟨programs r (readsMade { r with reads := ofItems items }), sources_run _, ?_, ?_⟩
    · rw [← hall]
      exact ((hmade.filter _).map _).filter _
    · intro hends
      obtain ⟨last, n, hlast, hreason⟩ := ending_run { r with reads := ofItems items }
      have hisLast := isLast_of_inputEnded (hreason _ hends)
      rcases eq_of_isLast hitems hmade hlast hisLast with hreads | hreads
      · rw [hreads, hall]
      · rw [hreads, hwanted]

/-- A failure between the lines and one inside the second line: the first and the third line are run
whole, and of the second one the end. -/
theorem run_behind_failures_between_and_inside :
    let f : Failure := .plain (Bytes.ofAscii "device busy")
    let items : List Item :=
      [.data (Bytes.ofAscii "+\r\n"), .failure f, .data (Bytes.ofAscii "**"), .failure f,
        .data (Bytes.ofAscii "-\n++")]
    let r : Repl :=
      { config := { interactive := false }
        engine := .on .emulate (.standard false)
        reads := []
        console := { sink := .unlimited } }
    let run := Repl.run { r with reads := ofItems items }
    (∀ f, .failure f ∈ items → f.isEnd = false) ∧ run.ending = .stopped .inputEnded ∧
    segments (dataOf items) =
      [Bytes.ofAscii "+\r", Bytes.ofAscii "**-", Bytes.ofAscii "++"] ∧
    sources run.repl = [Bytes.ofAscii "+", Bytes.ofAscii "-", Bytes.ofAscii "++"] := by
  intro f items r run
  have hitems : ∀ f, .failure f ∈ items → f.isEnd = false := by
    intro g hg
    have hgf : g = f := by simpa [items] using hg
    rw [hgf]
    decide
  have hends : run.ending = .stopped .inputEnded := by decide
  obtain ⟨hsegments, -, evaluated, hsources, -, hall⟩ := run_behind_failures r items hitems
  refine ⟨hitems, hends, ?_, ?_⟩
  · rw [← hsegments]
    decide
  · rw [hsources, hall hends]
    decide

/-- A read that fails in the middle of the only line: the end of the line is run as a program of its
own, although it is no line of the input. -/
theorem failure_splits_line :
    let items : List Item :=
      [.data (Bytes.ofAscii "++"), .failure (.plain (Bytes.ofAscii "device busy")),
        .data (Bytes.ofAscii "+\n")]
    let r : Repl :=
      { config := { interactive := false }
        engine := .on .emulate (.standard false)
        reads := ofItems items
        console := { sink := .unlimited } }
    (∀ f, .failure f ∈ items → f.isEnd = false) ∧
    sources r.run.repl = [Bytes.ofAscii "+"] ∧
    Bytes.ofAscii "+" ∉ (segments (dataOf items)).map trimLineEnd := by
  refine ⟨?_, by decide, by decide⟩
  intro g hg
  have hgf : g = .plain (Bytes.ofAscii "device busy") := by simpa using hg
  rw [hgf]
  decide

end Accumulator.Proofs.BrokenLines
