import Accumulator.Repl.Command
import Accumulator.Repl.Eval
/-!
# The read-eval-print loop

Every line of the input is a program of its own.  A failing line is noted and the loop goes on; it
stops at the end of the input, at a command to quit, or after three reads in a row that failed.
-/

namespace Accumulator

inductive Stop where
  | inputEnded
  | quit
  | readsFailed
  deriving DecidableEq, Repr

inductive RunEnd where
  | stopped (reason : Stop)
  | crashed (message : Option Bytes)
  deriving DecidableEq, Repr

namespace Repl

def counterLine (c : Counters) : Bytes :=
  Bytes.ofAscii "acquired=" ++ Text.decimalNat c.acquired ++
    Bytes.ofAscii " released=" ++ Text.decimalNat c.released ++
    Bytes.ofAscii " invoked=" ++ Text.decimalNat c.invoked ++
    Bytes.ofAscii " failures=" ++ Text.decimalNat c.failures

def obey (r : Repl) : Command → Option Stop × Repl
  | .help => (none, r.putLines Command.helpText)
  | .quit => (some .quit, r.putLines ["Bye!"])
  | .dump =>
      let showCode := !r.config.showCode
      let r := { r with config.showCode := showCode }
      (none, r.putLines [if showCode then "Code listing on." else "Code listing off."])
  | .stats => (none, r.put (Bytes.line (counterLine r.engine.counters)))
  | .unknown word =>
      let r := r.put (Bytes.line (Bytes.ofAscii "Unknown command: " ++ word))
      (none, r.putLines ["Type :help for available commands."])

def isLineEnd (b : UInt8) : Bool :=
  b == Bytes.ofChar '\n' || b == Bytes.ofChar '\r'

def trimLineEnd (text : Bytes) : Bytes :=
  (text.reverse.dropWhile isLineEnd).reverse

/-- What comes after one read: the loop goes on, with the number of reads that have failed in a row,
or it ends. -/
inductive Next where
  | goOn (failedReads : Nat)
  | stop (reason : Stop)
  | crash (message : Option Bytes)
  deriving DecidableEq, Repr

structure Turn where
  next : Next
  failures : List Failure
  repl : Repl

/-- The end of a turn in which nothing stopped the loop before. -/
def endTurn (r : Repl) (ended : Bool) (failures : List Failure) : Turn :=
  if ended then
    let r := if r.config.interactive then r.putLines ["\nBye!"] else r
    ⟨.stop .inputEnded, failures, r⟩
  else ⟨.goOn 0, failures, r⟩

def onLine (r : Repl) (line : Bytes) (ended : Bool) : Turn :=
  if r.config.interactive && Command.isCommand line then
    match r.obey (Command.ofLine line) with
    | (some reason, r) => ⟨.stop reason, [], r⟩
    | (none, r) => r.endTurn ended []
  else if Text.allBlank line then r.endTurn ended []
  else
    match r.eval line with
    | (.crashed message, r) => ⟨.crash message, [], r⟩
    | (.finished failure, r) => r.endTurn ended failure.toList

def readFailureLimit : Nat := 3

def onReadFailure (r : Repl) (failedReads : Nat) (f : Failure) : Turn :=
  let r := r.put (Bytes.line (Bytes.ofAscii "Error reading input: " ++ f.message))
  let next := if readFailureLimit ≤ failedReads + 1 then .stop .readsFailed else .goOn (failedReads + 1)
  ⟨next, [.reading r.line f], r⟩

def ask (r : Repl) : Repl :=
  if r.config.interactive then r.put r.config.prompt else r

def onRead (r : Repl) (failedReads : Nat) (read : Read) : Turn :=
  let r := { r with line := r.line + 1 }
  match read.failure with
  | none => r.onLine (trimLineEnd read.text) false
  | some f =>
      if f.isEnd then r.onLine (trimLineEnd read.text) true else r.onReadFailure failedReads f

def turn (r : Repl) (failedReads : Nat) (read : Read) : Turn :=
  r.ask.onRead failedReads read

structure Run where
  ending : RunEnd
  failures : List Failure
  repl : Repl

/-- The run that ends with the turn `t`, after the earlier `failures`, newest first. -/
def lastTurn (t : Turn) (failures : List Failure) : Run :=
  let ending :=
    match t.next with
    | .goOn _ => .stopped .inputEnded
    | .stop reason => .stopped reason
    | .crash message => .crashed message
  ⟨ending, (t.failures.reverse ++ failures).reverse, t.repl⟩

/-- Takes turns over the reads that are left; `failures` are those so far, newest first. -/
def loop (r : Repl) (failedReads : Nat) (failures : List Failure) : List Read → Run
  | [] => lastTurn ({ r with reads := [] }.turn failedReads .atEnd) failures
  | read :: rest =>
      let t := { r with reads := rest }.turn failedReads read
      match t.next with
      | .goOn failedReads => t.repl.loop failedReads (t.failures.reverse ++ failures) rest
      | _ => lastTurn t failures

def welcome : List String :=
  ["accjit v0.1.0", "Type :help for help, :quit to exit", ""]

def greet (r : Repl) : Repl :=
  if r.config.interactive then r.putLines welcome else r

def run (r : Repl) : Run :=
  r.greet.loop 0 [] r.reads

end Repl

end Accumulator
