import Accumulator.Text.Lowercase
import Accumulator.Text.Quoted
/-!
# Log levels

Levels in ascending order of weight, and their names.
-/

namespace Accumulator.Log

inductive Level where
  | debug
  | info
  | warn
  | error
  | dpanic
  | panic
  | fatal
  deriving DecidableEq, Repr

namespace Level

def all : List Level :=
  [debug, info, warn, error, dpanic, panic, fatal]

def weight : Level → Nat
  | debug => 0
  | info => 1
  | warn => 2
  | error => 3
  | dpanic => 4
  | panic => 5
  | fatal => 6

def enabledAt (threshold l : Level) : Bool :=
  threshold.weight ≤ l.weight

def name : Level → Bytes
  | debug => Bytes.ofAscii "debug"
  | info => Bytes.ofAscii "info"
  | warn => Bytes.ofAscii "warn"
  | error => Bytes.ofAscii "error"
  | dpanic => Bytes.ofAscii "dpanic"
  | panic => Bytes.ofAscii "panic"
  | fatal => Bytes.ofAscii "fatal"

/-- The level of a name in lower or upper case; no name at all is `info`. -/
def ofName? (name : Bytes) : Option Level :=
  if name = [] then some info
  else
    let lowered := Text.lower name
    all.find? fun l => l.name == lowered

def unknownMessage (name : Bytes) : Bytes :=
  Bytes.ofAscii "invalid log level " ++ Text.quote name ++ Bytes.ofAscii ": unrecognized level: " ++
    Text.quote name

end Level

end Accumulator.Log
