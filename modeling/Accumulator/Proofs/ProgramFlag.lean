import Accumulator.Proofs.CommandLines
import Accumulator.Proofs.DependableHosts
/-!
# One program on the command line

A command line that gives a program runs it once and does nothing else: standard input stays unread,
and of all files only the one with the settings is looked at.  The choice is made by the text of the
program, so the empty program is taken for none.
-/

namespace Accumulator.Proofs.ProgramFlag

open Cli CommandLines DependableHosts Evaluating PrintedOutcomes

def loopOn (c : Config) (world : World) : Repl :=
  loopOver c world false (Read.ofItems world.stdin)

def endingOf : EvalEnd → Ending
  | .finished failure => .exit (exitCode failure.isSome)
  | .crashed message => .crash message

theorem runProgram_eq (c : Config) (world : World) (program : Bytes) :
    runProgram c world program =
      { ending := endingOf ((loopOn c world).eval program).1
        stdout := ((loopOn c world).eval program).2.console
        log := Batch.evaluationLog ((loopOn c world).eval program).2 } := by
  have heval : (loopOver c world false []).eval program =
      (((loopOn c world).eval program).1, unread ((loopOn c world).eval program).2) :=
    eval_unread (loopOn c world) program
  unfold runProgram
  simp only [heval]
  cases ((loopOn c world).eval program).1 <;> rfl

theorem run_program {arguments paths : List Bytes} {given : List Given} {world : World}
    {c : Config} {level : Log.Level} (hline : CommandLine arguments given paths)
    (hsettings : (optionsOf given paths).settings world.files = .ok c)
    (hlevel : Log.Level.ofName? c.logLevel = some level)
    (hprogram : (optionsOf given paths).eval ≠ []) :
    let result := runProgram c world (optionsOf given paths).eval
    run arguments world = { result with log := Log.sample (Log.atLevel level result.log) } := by
  rw [run_of_commandLine hline hsettings hlevel, runWith, if_pos hprogram]

theorem optionsOf_of_empty {given : List Given} {paths : List Bytes}
    (hempty : (optionsOf given paths).eval = []) :
    optionsOf (given.filter (·.flag ≠ .eval)) paths = optionsOf given paths := by
  have hkept : ∀ o : Options, o.eval = [] → { o with eval := [] } = o := by
    intro o ho
    cases o
    cases ho
    rfl
  have hfold : (given.filter (·.flag ≠ .eval)).foldl Given.apply {} = given.foldl Given.apply {} :=
    (foldl_filter_eval {} [] given).trans (hkept _ hempty)
  rw [optionsOf, optionsFrom, hfold]
  rfl

/-- The program of a command line, if it is given and is not empty, is run once.  Its listing is
written if that is asked for, and then its result in the chosen format, as evaluating it does; the
exit code tells whether a failure came back.  Apart from the file with the settings, from the host and
from what becomes of the output, nothing in the world makes a difference.  If the program is empty, the
command line does what it does when none is given. -/
theorem program_flag_runs_program {arguments paths : List Bytes} {given : List Given}
    {program : Bytes} {world : World} {c : Config} {level : Log.Level}
    (hline : CommandLine arguments given paths) (hgiven : textOf .eval given = some program)
    (hsettings : (optionsOf given paths).settings world.files = .ok c)
    (hlevel : Log.Level.ofName? c.logLevel = some level)
    (hhost : Dependable (world.host c.writeXorExecute)) :
    let result := run arguments world
    let loop := loopOn c world
    let file := configFile (optionsOf given paths)
    (program ≠ [] →
      (∃ text failure,
        Printed program (Format.ofName c.output) (loop.engine.compileAndRun program).1.verdict text ∧
        (loop.eval program).1 = .finished failure ∧
        (loop.eval program).2.console = ((listed loop.config loop.console program).write text).2 ∧
        result.stdout = (loop.eval program).2.console ∧
        result.ending = .exit (if failure = none then 0 else 1)) ∧
      ∀ other : World, other.stdout = world.stdout → other.host = world.host →
        other.encoder = world.encoder → other.files file = world.files file →
          run arguments other = result) ∧
    (program = [] → ∀ others, CommandLine others (given.filter (·.flag ≠ .eval)) paths →
      run others world = result) := by
  intro result loop file
  have heval : (optionsOf given paths).eval = program := by
    rw [eval_optionsOf, hgiven]
    rfl
  refine ⟨?_, ?_⟩
  · intro hprogram
    rw [← heval] at hprogram
    constructor
    · have hresult : result = _ := run_program hline hsettings hlevel hprogram
      rw [heval, runProgram_eq] at hresult
      have hloop : Dependable loop.engine.executor.host := hhost
      obtain ⟨text, failure, hprinted, hfinished, hconsole⟩ := printed_of_dependable hloop program
      refine ⟨text, failure, hprinted, hfinished, hconsole, ?_, ?_⟩
      · rw [hresult]
      · rw [hresult, hfinished]
        cases failure <;> rfl
    · intro other hstdout hsame hencoder hfile
      have hsettings' : (optionsOf given paths).settings other.files = .ok c := by
        rw [settings_congr hfile, hsettings]
      calc run arguments other
          = _ := run_program hline hsettings' hlevel hprogram
        _ = _ := by rw [runProgram, loopOver_congr hstdout hsame hencoder, ← runProgram]
        _ = result := (run_program hline hsettings hlevel hprogram).symm
  · intro hempty others hothers
    have hsame := optionsOf_of_empty (heval.trans hempty)
    have hsettings' : (optionsOf (given.filter (·.flag ≠ .eval)) paths).settings world.files =
        .ok c := by rw [hsame, hsettings]
    calc run others world
        = _ := run_of_commandLine hothers hsettings' hlevel
      _ = _ := by rw [hsame]
      _ = result := (run_of_commandLine hline hsettings hlevel).symm

/-- Of two programs the last one is run, though there is something to read and a file is named. -/
theorem program_flag_runs_program_last :
    let arguments := ["-e", "-", "--json", "-e=+", "a"].map Bytes.ofAscii
    let given : List Given :=
      [.text .eval rfl (Bytes.ofAscii "-"), .switch .json rfl true,
        .text .eval rfl (Bytes.ofAscii "+")]
    let world : World :=
      { files := fun path =>
          if path = Bytes.ofAscii "a" then .ok (.regular (Bytes.ofAscii "*")) else .error .missing
        stdin := [.data (Bytes.ofAscii "/\n")]
        stdout := .unlimited }
    let other : World := { files := fun _ => .error .missing, stdin := [], stdout := .unlimited }
    CommandLine arguments given [Bytes.ofAscii "a"] ∧
    textOf .eval given = some (Bytes.ofAscii "+") ∧
    (run arguments world).stdout.output =
      Bytes.ofAscii "\x7b\"source\":\"+\",\"result\":1\x7d\n" ∧
    run arguments other = run arguments world := by
  intro arguments given world other
  have hline : CommandLine arguments given [Bytes.ofAscii "a"] :=
    .spaced rfl rfl rfl (.plain rfl rfl rfl (.joined rfl rfl rfl (.paths [] rfl)))
  have hsettings : (optionsOf given [Bytes.ofAscii "a"]).settings world.files =
      .ok { output := Format.json.name } := rfl
  have hlevel : Log.Level.ofName? ({ output := Format.json.name } : Config).logLevel =
      some .warn := by decide
  have hruns := (program_flag_runs_program hline rfl hsettings hlevel
    (dependable_standard false)).1 (by decide)
  exact ⟨hline, rfl, by decide, hruns.2 other rfl rfl rfl rfl⟩

/-- The empty program is a program, with the value zero, but to give it starts the dialogue. -/
theorem empty_program_not_run :
    let arguments : List Bytes := [Bytes.ofAscii "-e", []]
    let world : World := { files := fun _ => .error .missing, stdin := [], stdout := .unlimited }
    CommandLine arguments [.text .eval rfl []] [] ∧
    textOf .eval [.text .eval rfl []] = some [] ∧
    (optionsOf [.text .eval rfl []] []).settings world.files = .ok {} ∧
    Log.Level.ofName? ({} : Config).logLevel = some .warn ∧
    ((loopOn {} world).eval []).2.console.output = Bytes.ofAscii "0\n" ∧
    (run arguments world).stdout.output =
      Bytes.ofAscii "accjit v0.1.0\nType :help for help, :quit to exit\n\njit> \nBye!\n" := by
  intro arguments world
  have hline : CommandLine arguments [.text .eval rfl []] [] := .spaced rfl rfl rfl .nothing
  exact ⟨hline, rfl, rfl, by decide, by decide, by decide⟩

end Accumulator.Proofs.ProgramFlag
