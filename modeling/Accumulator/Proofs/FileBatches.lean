import Accumulator.Proofs.CommandLines
import Accumulator.Proofs.DependableHosts
/-!
# Batches of files

The files of a command line share one engine and one output.  All that a file finds of those before it
is how often the host and the output have been asked, so running some files and then others is running
them all.  Each file has its own lines and its own failures, and one that cannot be opened is no more
than a failure among others.
-/

namespace Accumulator.Proofs.FileBatches

open Cli CommandLines Continuing DependableHosts Repl Turns

/-! ## One file -/

def fileLoop (config : ReplConfig) (engine : Engine) (console : Console) (path : Bytes)
    (file : File) : Repl where
  config := config
  engine := engine
  reads := Read.ofItems (file.items readFailureLimit path)
  console := console

def openLine (f : OpenFailure) (path : Bytes) : Bytes :=
  Bytes.line (Bytes.ofAscii "Error reading file: " ++ f.message path)

/-- The ending of one batch and then another.  The exit code says whether anything failed, so that a
second batch in which nothing did leaves it alone. -/
def endingThen (first : Ending) : Ending → Ending
  | .exit 0 => first
  | other => other

theorem endingThen_assoc (a b c : Ending) :
    endingThen (endingThen a b) c = endingThen a (endingThen b c) := by
  cases c with
  | crash message => rfl
  | exit code => cases code <;> rfl

def entriesOf (path : Bytes) (run : Run) : List Log.Entry :=
  Batch.evaluationLog run.repl ++
    if run.failures = [] then [] else [Batch.fileEntry path run.failures.length]

def ran (b : Batch) (path : Bytes) (run : Run) : Batch :=
  { b with
    engine := run.repl.engine
    console := run.repl.console
    log := b.log ++ entriesOf path run
    ending := endingThen b.ending (.exit (exitCode (run.failures ≠ []))) }

/-- A batch on the engine and the output of a command line.  So far it has not crashed. -/
structure Under (c : Config) (world : World) (b : Batch) : Prop where
  mode : b.engine.mode = (engineOf c world).mode
  host : b.engine.executor.host = world.host c.writeXorExecute
  sink : b.console.sink = world.stdout
  ending : ∃ failed, b.ending = .exit (exitCode failed)

def newBatch (c : Config) (world : World) : Batch where
  engine := engineOf c world
  console := { sink := world.stdout }

theorem under_newBatch (c : Config) (world : World) : Under c world (newBatch c world) :=
  ⟨rfl, rfl, rfl, false, rfl⟩

section OneFile

variable {c : Config} {world : World} {config : ReplConfig} {b : Batch} {files : FileSystem}
  {path : Bytes}

theorem Under.runFile_of_error (hunder : Under c world b) {f : OpenFailure}
    (hopen : files path = .error f) :
    Batch.runFile config files b path =
      { b with stderr := b.stderr ++ openLine f path, ending := .exit 1 } := by
  obtain ⟨failed, hending⟩ := hunder.ending
  unfold Batch.runFile
  rw [hending, hopen]
  rfl

variable (hhost : Dependable (world.host c.writeXorExecute))
include hhost

theorem Under.run_fileLoop (hunder : Under c world b) (config : ReplConfig) (path : Bytes)
    (file : File) :
    (∃ reason, (fileLoop config b.engine b.console path file).run.ending = .stopped reason) ∧
      Stays (fileLoop config b.engine b.console path file)
        (fileLoop config b.engine b.console path file).run.repl := by
  have hloop : Dependable (fileLoop config b.engine b.console path file).engine.executor.host := by
    show Dependable b.engine.executor.host
    rw [hunder.host]
    exact hhost
  exact run_of_dependable hloop

theorem Under.runFile_of_ok (hunder : Under c world b) {file : File}
    (hopen : files path = .ok file) :
    Batch.runFile config files b path =
      ran b path (fileLoop config b.engine b.console path file).run := by
  obtain ⟨failed, hending⟩ := hunder.ending
  obtain ⟨⟨reason, hstopped⟩, _⟩ := hunder.run_fileLoop hhost config path file
  have hrun : Repl.run
      { config
        engine := b.engine
        reads := Read.ofItems (file.items readFailureLimit path)
        console := b.console } = (fileLoop config b.engine b.console path file).run := rfl
  unfold Batch.runFile ran entriesOf
  rw [hending, hopen]
  simp only [hrun, hstopped]
  by_cases hclean : (fileLoop config b.engine b.console path file).run.failures = []
  · rw [if_pos hclean, if_pos hclean]
    simp [hclean, exitCode, endingThen]
  · rw [if_neg hclean, if_neg hclean]
    simp [hclean, exitCode, endingThen]

theorem Under.runFile (hunder : Under c world b) (config : ReplConfig) (files : FileSystem)
    (path : Bytes) : Under c world (Batch.runFile config files b path) := by
  cases hopen : files path with
  | error f =>
      rw [hunder.runFile_of_error hopen]
      exact ⟨hunder.mode, hunder.host, hunder.sink, true, rfl⟩
  | ok file =>
      obtain ⟨failed, hending⟩ := hunder.ending
      obtain ⟨_, hstays⟩ := hunder.run_fileLoop hhost config path file
      rw [hunder.runFile_of_ok hhost hopen]
      refine ⟨hstays.mode.trans hunder.mode, hstays.host.trans hunder.host,
        hstays.sink.trans hunder.sink, ?_⟩
      show ∃ failed, endingThen b.ending _ = _
      rw [hending]
      cases decide ((fileLoop config b.engine b.console path file).run.failures ≠ []) with
      | true => exact ⟨true, rfl⟩
      | false => exact ⟨failed, rfl⟩

end OneFile

/-! ## Files after files -/

def batchThen (first b : Batch) : Batch where
  engine := Past.engine ⟨first.engine.executor, first.console⟩ b.engine
  console := joined first.console b.console
  stderr := first.stderr ++ b.stderr
  log := first.log ++ b.log
  ending := endingThen first.ending b.ending

/-- A world in which a batch has been run before, with its output and so many requests. -/
def worldAfter (world : World) (stdout : Console) (requests : Nat) : World :=
  { world with stdout := sinkLeft stdout, host := fun strict => hostAfter (world.host strict) requests }

def worldLeft (world : World) (b : Batch) : World :=
  worldAfter world b.console b.engine.executor.requests

theorem dependable_worldAfter {world : World} {strict : Bool} (hhost : Dependable (world.host strict))
    (stdout : Console) (requests : Nat) :
    Dependable ((worldAfter world stdout requests).host strict) :=
  ⟨fun k => hhost.returns (requests + k), fun k => hhost.speaks (requests + k)⟩

section Batches

variable {c : Config} {world : World} {config : ReplConfig} {first b : Batch}

theorem batchThen_newBatch (hfirst : Under c world first) :
    batchThen first (newBatch c (worldLeft world first)) = first := by
  have hengine : Past.engine ⟨first.engine.executor, first.console⟩
      (engineOf c (worldLeft world first)) = first.engine := by
    unfold Past.engine
    show Engine.mk (engineOf c world).mode _ = _
    rw [← hfirst.mode]
    rfl
  unfold batchThen newBatch
  rw [hengine]
  simp [joined_new, endingThen, exitCode]

theorem ending_batchThen (hfirst : Under c world first) (hb : Under c (worldLeft world first) b) :
    ∃ failed, (batchThen first b).ending = .exit (exitCode failed) := by
  obtain ⟨failed, hending⟩ := hfirst.ending
  obtain ⟨failed', hending'⟩ := hb.ending
  show ∃ failed, endingThen first.ending b.ending = _
  rw [hending, hending']
  cases failed' with
  | true => exact ⟨true, rfl⟩
  | false => exact ⟨failed, rfl⟩

theorem ending_batchThen_iff (hfirst : Under c world first)
    (hb : Under c (worldLeft world first) b) :
    (batchThen first b).ending = .exit 1 ↔ first.ending = .exit 1 ∨ b.ending = .exit 1 := by
  obtain ⟨failed, hending⟩ := hfirst.ending
  obtain ⟨failed', hending'⟩ := hb.ending
  show endingThen first.ending b.ending = _ ↔ _
  rw [hending, hending']
  cases failed <;> cases failed' <;> decide

theorem under_batchThen (hfirst : Under c world first) (hb : Under c (worldLeft world first) b) :
    Under c world (batchThen first b) :=
  ⟨hb.mode, hfirst.host, hfirst.sink, ending_batchThen hfirst hb⟩

theorem fileLoop_batchThen (hfirst : Under c world first) (hb : Under c (worldLeft world first) b)
    (hbatch : config.interactive = false) (path : Bytes) (file : File) :
    let p : Past := ⟨first.engine.executor, first.console⟩
    (fileLoop config (batchThen first b).engine (batchThen first b).console path file).run =
      p.run (fileLoop config b.engine b.console path file).run := by
  intro p
  have hleft : b.engine.executor.host = hostLeft first.engine.executor := by
    rw [hb.host, hostLeft, hfirst.host]
    rfl
  have hpast : p.Precedes (fileLoop config b.engine b.console path file) :=
    ⟨hleft, hb.sink, hbatch⟩
  exact run_repl hpast

theorem ran_batchThen (first b : Batch) (path : Bytes) (run : Run) :
    ran (batchThen first b) path (Past.run ⟨first.engine.executor, first.console⟩ run) =
      batchThen first (ran b path run) := by
  unfold ran batchThen
  simp only [endingThen_assoc, List.append_assoc]
  rfl

variable (hhost : Dependable (world.host c.writeXorExecute))
include hhost

theorem runFile_batchThen (hfirst : Under c world first) (hb : Under c (worldLeft world first) b)
    (hbatch : config.interactive = false) (files : FileSystem) (path : Bytes) :
    Batch.runFile config files (batchThen first b) path =
      batchThen first (Batch.runFile config files b path) := by
  have hboth := under_batchThen hfirst hb
  cases hopen : files path with
  | error f =>
      rw [hboth.runFile_of_error hopen, hb.runFile_of_error hopen]
      simp [batchThen, endingThen]
  | ok file =>
      rw [hboth.runFile_of_ok hhost hopen,
        hb.runFile_of_ok (dependable_worldAfter hhost _ _) hopen,
        fileLoop_batchThen hfirst hb hbatch, ran_batchThen]

theorem runFiles_batchThen (hfirst : Under c world first) (hb : Under c (worldLeft world first) b)
    (hbatch : config.interactive = false) (files : FileSystem) (paths : List Bytes) :
    Batch.runFiles config files (batchThen first b) paths =
      batchThen first (Batch.runFiles config files b paths) := by
  induction paths generalizing b with
  | nil => rfl
  | cons path rest ih =>
      have hnext := ih (hb.runFile (dependable_worldAfter hhost _ _) config files path)
      rw [← runFile_batchThen hhost hfirst hb hbatch] at hnext
      exact hnext

theorem Under.runFiles (hunder : Under c world b) (config : ReplConfig) (files : FileSystem)
    (paths : List Bytes) : Under c world (Batch.runFiles config files b paths) := by
  induction paths generalizing b with
  | nil => exact hunder
  | cons path rest ih => exact ih (hunder.runFile hhost config files path)

end Batches

def batchOf (c : Config) (world : World) (paths : List Bytes) : Batch :=
  Batch.runFiles (replConfigOf c world false) world.files (newBatch c world) paths

section BatchOf

variable {c : Config} {world : World} (hhost : Dependable (world.host c.writeXorExecute))
include hhost

theorem under_batchOf (paths : List Bytes) : Under c world (batchOf c world paths) :=
  (under_newBatch c world).runFiles hhost _ world.files paths

theorem batchOf_append (first second : List Bytes) :
    batchOf c world (first ++ second) =
      batchThen (batchOf c world first)
        (batchOf c (worldLeft world (batchOf c world first)) second) := by
  have hfirst := under_batchOf hhost first
  have hnew := under_newBatch c (worldLeft world (batchOf c world first))
  calc batchOf c world (first ++ second)
      = Batch.runFiles (replConfigOf c world false) world.files (batchOf c world first) second :=
        List.foldl_append
    _ = _ := by
        nth_rewrite 1 [← batchThen_newBatch hfirst]
        exact runFiles_batchThen hhost hfirst hnew rfl world.files second

theorem batchOf_of_ok {path : Bytes} {file : File} (hopen : world.files path = .ok file) :
    let config := replConfigOf c world false
    let alone := (fileLoop config (engineOf c world) { sink := world.stdout } path file).run
    ((batchOf c world [path]).ending = .exit 1 ↔ alone.failures ≠ []) ∧
      (batchOf c world [path]).console = alone.repl.console := by
  intro config alone
  have hrun : Batch.runFile config world.files (newBatch c world) path = _ :=
    (under_newBatch c world).runFile_of_ok hhost hopen
  show ((Batch.runFile _ _ _ path).ending = _ ↔ _) ∧ (Batch.runFile _ _ _ path).console = _
  rw [hrun]
  refine ⟨?_, rfl⟩
  show endingThen (.exit 0) (.exit (exitCode (alone.failures ≠ []))) = _ ↔ _
  by_cases hfailed : alone.failures ≠ []
  · simp [hfailed, exitCode, endingThen]
  · simp [hfailed, exitCode, endingThen]

end BatchOf

theorem batchOf_of_error {c : Config} {world : World} {path : Bytes} {f : OpenFailure}
    (hopen : world.files path = .error f) :
    (batchOf c world [path]).ending = .exit 1 ∧
      (batchOf c world [path]).console = { sink := world.stdout } := by
  have hrun : Batch.runFile (replConfigOf c world false) world.files (newBatch c world) path = _ :=
    (under_newBatch c world).runFile_of_error hopen
  show (Batch.runFile _ _ _ path).ending = _ ∧ (Batch.runFile _ _ _ path).console = _
  rw [hrun]
  exact ⟨rfl, rfl⟩

/-- A sink that decides by the text alone, and a host that serves every request in the same way, are
left as they were found. -/
theorem worldAfter_of_steady {world : World} {stdout : Console} (hsink : stdout.sink = world.stdout)
    (hsteady : ∀ attempts taken text, world.stdout attempts taken text = world.stdout 0 0 text)
    (hserve : ∀ strict k, (world.host strict).serve k = (world.host strict).serve 0)
    (requests : Nat) : worldAfter world stdout requests = world := by
  have hleft : sinkLeft stdout = world.stdout := by
    funext attempts taken text
    rw [sinkLeft, hsink, hsteady, hsteady attempts taken]
  have hafter : (fun strict => hostAfter (world.host strict) requests) = world.host := by
    funext strict
    exact hostAfter_of_steady (hserve strict) requests
  rw [worldAfter, hleft, hafter]

/-! ## Command lines -/

def resultOf (level : Log.Level) (b : Batch) : Result where
  ending := b.ending
  stdout := b.console
  stderr := b.stderr
  log := Log.sample (Log.atLevel level b.log)

theorem run_files {arguments paths : List Bytes} {given : List Given} {world : World}
    {c : Config} {level : Log.Level} (hline : CommandLine arguments given paths)
    (hpaths : paths ≠ []) (hprogram : textOf .eval given = none)
    (hsettings : (optionsOf given []).settings world.files = .ok c)
    (hlevel : Log.Level.ofName? c.logLevel = some level) :
    run arguments world = resultOf level (batchOf c world paths) := by
  have heval : (optionsOf given paths).eval = [] := by
    rw [eval_optionsOf, hprogram]
    rfl
  have hsettings' : (optionsOf given paths).settings world.files = .ok c := hsettings
  have hchosen : (optionsOf given paths).paths ≠ [] := hpaths
  rw [run_of_commandLine hline hsettings' hlevel, runWith, heval, if_neg (by simp), if_pos hchosen]
  rfl

/-- By itself a file that cannot be opened gives the exit code 1 and no output.  One that can be opened
gives the output of the loop over its lines, and the exit code 1 exactly if failures come back. -/
theorem run_one_file {arguments : List Bytes} {path : Bytes} {given : List Given} {world : World}
    {c : Config} {level : Log.Level} (hline : CommandLine arguments given [path])
    (hprogram : textOf .eval given = none)
    (hsettings : (optionsOf given []).settings world.files = .ok c)
    (hlevel : Log.Level.ofName? c.logLevel = some level)
    (hhost : Dependable (world.host c.writeXorExecute)) :
    let result := run arguments world
    (∀ f, world.files path = .error f → result.ending = .exit 1 ∧ result.stdout.output = []) ∧
    (∀ file, world.files path = .ok file →
      let config := replConfigOf c world false
      let alone := (fileLoop config (engineOf c world) { sink := world.stdout } path file).run
      (result.ending = .exit 1 ↔ alone.failures ≠ []) ∧ result.stdout = alone.repl.console) := by
  intro result
  have hresult : result = resultOf level (batchOf c world [path]) :=
    run_files hline (List.cons_ne_nil path []) hprogram hsettings hlevel
  rw [hresult]
  refine ⟨?_, fun file hopen => batchOf_of_ok hhost hopen⟩
  intro f hopen
  obtain ⟨hending, hnew⟩ := batchOf_of_error (c := c) hopen
  refine ⟨hending, ?_⟩
  show (batchOf c world [path]).console.output = []
  rw [hnew]
  rfl

/-- Under the same flags, running some files and then others is running them all.  The output and what
is said about files that cannot be opened come one after the other, and the exit code is 1 if it is
for the first files or for the others.  The others find the output and the host as the first files have
left them; where a text is taken or refused by the text alone, and every request is served in the same
way, this makes no difference.  With what becomes of one file by itself, this settles what becomes of
any number of them. -/
theorem run_files_append {whole before after first second : List Bytes} {given : List Given}
    {world : World} {c : Config} {level : Log.Level}
    (hwhole : CommandLine whole given (first ++ second))
    (hbefore : CommandLine before given first) (hafter : CommandLine after given second)
    (hfirst : first ≠ []) (hsecond : second ≠ []) (hprogram : textOf .eval given = none)
    (hsettings : (optionsOf given []).settings world.files = .ok c)
    (hlevel : Log.Level.ofName? c.logLevel = some level)
    (hhost : Dependable (world.host c.writeXorExecute)) :
    let all := run whole world
    let one := run before world
    let requests := (batchOf c world first).engine.executor.requests
    let two := run after (worldAfter world one.stdout requests)
    all.stdout.output = one.stdout.output ++ two.stdout.output ∧
    all.stderr = one.stderr ++ two.stderr ∧
    (all.ending = .exit 0 ∨ all.ending = .exit 1) ∧
    (all.ending = .exit 1 ↔ one.ending = .exit 1 ∨ two.ending = .exit 1) ∧
    ((∀ attempts taken text, world.stdout attempts taken text = world.stdout 0 0 text) →
      (∀ strict k, (world.host strict).serve k = (world.host strict).serve 0) →
        two = run after world) ∧
    ∀ single path, CommandLine single given [path] →
      (∀ f, world.files path = .error f →
        (run single world).ending = .exit 1 ∧ (run single world).stdout.output = []) ∧
      (∀ file, world.files path = .ok file →
        let config := replConfigOf c world false
        let alone := (fileLoop config (engineOf c world) { sink := world.stdout } path file).run
        ((run single world).ending = .exit 1 ↔ alone.failures ≠ []) ∧
          (run single world).stdout = alone.repl.console) := by
  intro all one requests two
  let b := batchOf c world first
  let d := batchOf c (worldLeft world b) second
  have hb : Under c world b := under_batchOf hhost first
  have hd : Under c (worldLeft world b) d :=
    under_batchOf (dependable_worldAfter hhost _ _) second
  have hone : one = resultOf level b := run_files hbefore hfirst hprogram hsettings hlevel
  have htwo : two = resultOf level d := by
    show run after (worldAfter world one.stdout requests) = _
    rw [hone]
    exact run_files hafter hsecond hprogram hsettings hlevel
  have hall : all = resultOf level (batchThen b d) := by
    rw [← batchOf_append hhost]
    exact run_files hwhole (by simp [hfirst]) hprogram hsettings hlevel
  refine ⟨?_, ?_, ?_, ?_, ?_, fun _ _ hsingle =>
    run_one_file hsingle hprogram hsettings hlevel hhost⟩
  · rw [hall, hone, htwo]
    exact output_joined b.console d.console
  · rw [hall, hone, htwo]
    rfl
  · obtain ⟨failed, hending⟩ := ending_batchThen hb hd
    rw [hall]
    cases failed with
    | false => exact .inl hending
    | true => exact .inr hending
  · rw [hall, hone, htwo]
    exact ending_batchThen_iff hb hd
  · intro hsteady hserve
    have hsame : worldAfter world one.stdout requests = world := by
      rw [hone]
      exact worldAfter_of_steady hb.sink hsteady hserve requests
    exact congrArg (run after) hsame

/-- Eight bytes hold the code for one increment or decrement, and not for more. -/
def eightBytes : Kernel
  | .map size _ => if size ≤ 8 then none else some (.plain (Bytes.ofAscii "no memory"))
  | _ => none

/-- A file whose last line has no end and is refused its memory, a file that does not exist, and a file
behind them. -/
def threeFiles : World where
  files path :=
    if path = Bytes.ofAscii "open" then .ok (.regular (Bytes.ofAscii "-\n++"))
    else if path = Bytes.ofAscii "last" then .ok (.regular (Bytes.ofAscii "+\n"))
    else .error .missing
  stdin := []
  stdout := .unlimited
  host strict := .pages ⟨strict⟩ (fun _ => eightBytes) Invocation.emulate

theorem run_files_append_unterminated :
    let whole := ["open", "none", "last"].map Bytes.ofAscii
    let before := ["open", "none"].map Bytes.ofAscii
    let after := ["last"].map Bytes.ofAscii
    (run before threeFiles).stdout.output =
      Bytes.ofAscii "-1\nerror: jit: mmap of 12 bytes failed: no memory\n" ∧
    (run before threeFiles).ending = .exit 1 ∧
    (run after threeFiles).stdout.output = Bytes.ofAscii "1\n" ∧
    (run after threeFiles).ending = .exit 0 ∧
    (run whole threeFiles).stdout.output =
      (run before threeFiles).stdout.output ++ (run after threeFiles).stdout.output ∧
    ((run whole threeFiles).ending = .exit 1 ↔
      (run before threeFiles).ending = .exit 1 ∨ (run after threeFiles).ending = .exit 1) := by
  intro whole before after
  let given : List Given := []
  have hwhole : CommandLine whole given (["open", "none", "last"].map Bytes.ofAscii) :=
    .paths _ rfl
  have hbefore : CommandLine before given (["open", "none"].map Bytes.ofAscii) :=
    .paths _ rfl
  have hafter : CommandLine after given (["last"].map Bytes.ofAscii) :=
    .paths _ rfl
  have hsettings : (optionsOf given []).settings threeFiles.files = .ok {} := rfl
  have hlevel : Log.Level.ofName? ({} : Config).logLevel = some .warn := rfl
  obtain ⟨houtput, _, _, hending, hsteady, _⟩ :=
    run_files_append hwhole hbefore hafter (by decide) (by decide) rfl hsettings hlevel
      (dependable_pages _ _)
  rw [hsteady (fun _ _ _ => rfl) fun _ _ => rfl] at houtput hending
  exact ⟨by decide, by decide, by decide, by decide, houtput, hending⟩

end Accumulator.Proofs.FileBatches
