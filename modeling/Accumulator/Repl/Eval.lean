import Accumulator.Console
import Accumulator.Engine
import Accumulator.Listing
import Accumulator.Repl.Read
import Accumulator.Repl.Report
/-!
# Evaluating programs

The state of a read-eval-print loop, and what it does with one program: compile it, list its code if
asked to, run it and report the outcome.
-/

namespace Accumulator

/-- Objects are written by an encoder.  It answers a refused write in its own way, with a failure or
with none. -/
abbrev Encoder :=
  Failure → Option Failure

def Encoder.heedless : Encoder :=
  fun _ => none

structure ReplConfig where
  prompt : Bytes := Bytes.ofAscii "jit> "
  interactive : Bool := true
  showCode : Bool := false
  format : Format := .text
  encoder : Encoder := .heedless

/-- What comes back of a write that was refused: of a line of text the refusal itself, of an object what
the encoder answers. -/
def ReplConfig.answer (c : ReplConfig) (refusal : Failure) : Option Failure :=
  match c.format with
  | .text => some refusal
  | .json => c.encoder refusal

structure Evaluation where
  line : Nat
  source : Bytes
  call : Call
  deriving DecidableEq, Repr

structure Repl where
  config : ReplConfig
  engine : Engine
  reads : List Read
  console : Console
  /-- Reads made so far. -/
  line : Nat := 0
  /-- Newest first. -/
  evaluations : List Evaluation := []

/-- How evaluating a program ends: with a failure or without one, or in a crash, whose message is
missing when there was nothing to report. -/
inductive EvalEnd where
  | finished (failure : Option Failure)
  | crashed (message : Option Bytes)
  deriving DecidableEq, Repr

namespace Repl

def put (r : Repl) (text : Bytes) : Repl :=
  { r with console := r.console.put text }

def putLines (r : Repl) (lines : List String) : Repl :=
  { r with console := r.console.putLines lines }

/-- Writes a report.  What comes back of a refused write takes the place of the failure. -/
def report (r : Repl) (report : Report) (failure : Option Failure) : EvalEnd × Repl :=
  match report.render? r.config.format with
  | none => (.crashed none, r)
  | some text =>
      let (refusal, console) := r.console.write text
      (.finished ((refusal.bind r.config.answer).or failure), { r with console })

def eval (r : Repl) (source : Bytes) : EvalEnd × Repl :=
  let program := Program.compile source
  let r := if r.config.showCode then r.put program.listing else r
  let (call, engine) := r.engine.run program.code
  let r := { r with engine, evaluations := ⟨r.line, source, call⟩ :: r.evaluations }
  match call.verdict with
  | .aborted message => (.crashed (some message), r)
  | .value v => r.report { source, value := some v } none
  | .failed f => r.report { source, error := f.message } (some (.program r.line source f))

end Repl

end Accumulator
