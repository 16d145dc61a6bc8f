import Accumulator.Cli.Flags
import Accumulator.Config
import Accumulator.Repl.Loop
/-!
# The command line

A command line runs one program, the lines of some files, or the interactive loop, under the settings
of a file and of its flags.
-/

namespace Accumulator.Cli

structure World where
  files : FileSystem
  stdin : List Item
  stdout : Sink
  /-- What programs run on, in the strict discipline or without it. -/
  host : Bool → Host := Host.standard
  encoder : Encoder := .heedless

/-- How a command line ends: with an exit code, or in a crash, whose message is missing when there
was nothing to report. -/
inductive Ending where
  | exit (code : Nat)
  | crash (message : Option Bytes)
  deriving DecidableEq, Repr

structure Result where
  ending : Ending
  stdout : Console
  stderr : Bytes := []
  log : List Log.Entry := []

namespace Options

def override (o : Options) (c : Config) : Config where
  prompt := c.prompt
  logLevel := o.logLevel.getD c.logLevel
  output :=
    match o.json with
    | some true => Format.json.name
    | some false => Format.text.name
    | none => c.output
  writeXorExecute := o.wxorx.getD c.writeXorExecute
  emulate := o.emulate.getD c.emulate
  showCode := o.dump.getD c.showCode

/-- The settings that a command line runs under.  The file has to be valid by itself. -/
def settings (o : Options) (files : FileSystem) : Except ConfigFailure Config := do
  let c ← if o.config = [] then Config.loadOptional files Config.defaultPath
    else Config.load files o.config
  (o.override c).validate

end Options

def exitCode (failed : Bool) : Nat :=
  if failed then 1 else 0

structure Batch where
  engine : Engine
  console : Console
  stderr : Bytes := []
  log : List Log.Entry := []
  ending : Ending := .exit (exitCode false)

namespace Batch

def fileEntry (path : Bytes) (failures : Nat) : Log.Entry where
  level := .info
  message := Bytes.ofAscii "file finished with failures"
  fields := [(Bytes.ofAscii "file", .text path), (Bytes.ofAscii "failures", .number failures)]

def evaluationLog (r : Repl) : List Log.Entry :=
  r.evaluations.reverse.flatMap fun e => e.call.log

/-- Runs one file.  A file that cannot be opened is reported and passed over, and after a crash
nothing is run any more. -/
def runFile (config : ReplConfig) (files : FileSystem) (b : Batch) (path : Bytes) : Batch :=
  match b.ending, files path with
  | .crash _, _ => b
  | .exit _, .error f =>
      let message := Bytes.line (Bytes.ofAscii "Error reading file: " ++ f.message path)
      { b with stderr := b.stderr ++ message, ending := .exit (exitCode true) }
  | .exit code, .ok file =>
      let reads := Read.ofItems (file.items Repl.readFailureLimit path)
      let run := Repl.run { config, engine := b.engine, reads, console := b.console }
      let b :=
        { b with
          engine := run.repl.engine
          console := run.repl.console
          log := b.log ++ evaluationLog run.repl }
      match run.ending with
      | .crashed message => { b with ending := .crash message }
      | .stopped _ =>
          if run.failures = [] then { b with ending := .exit code }
          else
            { b with
              log := b.log ++ [fileEntry path run.failures.length]
              ending := .exit (exitCode true) }

def runFiles (config : ReplConfig) (files : FileSystem) (b : Batch) (paths : List Bytes) : Batch :=
  paths.foldl (runFile config files) b

end Batch

def engineOf (c : Config) (world : World) : Engine :=
  Engine.on (if c.emulate then .emulate else .native) (world.host c.writeXorExecute)

def replConfigOf (c : Config) (world : World) (interactive : Bool) : ReplConfig where
  prompt := c.prompt
  interactive := interactive
  showCode := c.showCode
  format := Format.ofName c.output
  encoder := world.encoder

def loopOver (c : Config) (world : World) (interactive : Bool) (reads : List Read) : Repl where
  config := replConfigOf c world interactive
  engine := engineOf c world
  reads := reads
  console := { sink := world.stdout }

def runProgram (c : Config) (world : World) (source : Bytes) : Result :=
  let (ending, r) := (loopOver c world false []).eval source
  let ending : Ending :=
    match ending with
    | .finished failure => .exit (exitCode failure.isSome)
    | .crashed message => .crash message
  { ending, stdout := r.console, log := Batch.evaluationLog r }

/-- Runs the interactive loop, whose failures do not count. -/
def runInteractive (c : Config) (world : World) : Result :=
  let run := (loopOver c world true (Read.ofItems world.stdin)).run
  let ending : Ending :=
    match run.ending with
    | .stopped _ => .exit (exitCode false)
    | .crashed message => .crash message
  { ending, stdout := run.repl.console, log := Batch.evaluationLog run.repl }

def runWith (o : Options) (c : Config) (world : World) : Result :=
  if o.eval ≠ [] then runProgram c world o.eval
  else if o.paths ≠ [] then
    let b := Batch.runFiles (replConfigOf c world false) world.files
      { engine := engineOf c world, console := { sink := world.stdout } } o.paths
    { ending := b.ending, stdout := b.console, stderr := b.stderr, log := b.log }
  else runInteractive c world

structure Refusal where
  ending : Ending
  stderr : Bytes
  deriving DecidableEq, Repr

structure Job where
  options : Options
  config : Config
  level : Log.Level
  deriving DecidableEq, Repr

def errorLine (message : Bytes) : Bytes :=
  Bytes.line (Bytes.ofAscii "Error: " ++ message)

def refuseFlags (f : FlagFailure) : Refusal where
  ending := .exit (if f = .help then 0 else 2)
  stderr := f.message?.elim [] Bytes.line ++ usage

/-- Settings that are no good lead to one line about them, unless reading them breaks down. -/
def refuseSettings (f : ConfigFailure) : Refusal :=
  match f with
  | .brokenDown b => ⟨.crash (some b.message), []⟩
  | f => ⟨.exit (exitCode true), errorLine f.message⟩

def prepare (arguments : List Bytes) (files : FileSystem) : Except Refusal Job :=
  match Options.parse arguments with
  | .error f => .error (refuseFlags f)
  | .ok options =>
      match options.settings files with
      | .error f => .error (refuseSettings f)
      | .ok config =>
          match Log.Level.ofName? config.logLevel with
          | none =>
              .error ⟨.exit (exitCode true), errorLine (Log.Level.unknownMessage config.logLevel)⟩
          | some level => .ok ⟨options, config, level⟩

def run (arguments : List Bytes) (world : World) : Result :=
  match prepare arguments world.files with
  | .error refusal =>
      { ending := refusal.ending, stdout := { sink := world.stdout }, stderr := refusal.stderr }
  | .ok job =>
      let result := runWith job.options job.config world
      { result with log := Log.sample (Log.atLevel job.level result.log) }

end Accumulator.Cli
