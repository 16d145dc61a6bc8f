import Accumulator.Text.Decimal
import Accumulator.Text.Json
/-!
# Reports

The outcome of one program as a line of text or as a JSON object on a line.
-/

namespace Accumulator

inductive Format where
  | text
  | json
  deriving DecidableEq, Repr

namespace Format

def name : Format → Bytes
  | text => Bytes.ofAscii "text"
  | json => Bytes.ofAscii "json"

def ofName? (name : Bytes) : Option Format :=
  if name = text.name then some text else if name = json.name then some json else none

/-- Every unknown name means text. -/
def ofName (name : Bytes) : Format :=
  (ofName? name).getD text

end Format

structure Report where
  source : Bytes
  value : Option Int64 := none
  error : Bytes := []
  deriving DecidableEq, Repr

namespace Report

/-- A report as a line of text.  There is none when it has neither a value nor a message. -/
def text? (r : Report) : Option Bytes :=
  if r.error ≠ [] then some (Bytes.line (Bytes.ofAscii "error: " ++ r.error))
  else r.value.map fun v => Bytes.line (Text.decimal v.toInt)

/-- The members of the object that a report makes.  A value or a message that is missing is left
out. -/
def members (r : Report) : List (String × Bytes) :=
  [("source", Text.Json.string r.source)] ++
    (match r.value with
      | some v => [("result", Text.decimal v.toInt)]
      | none => []) ++
    (if r.error = [] then [] else [("error", Text.Json.string r.error)])

def json (r : Report) : Bytes :=
  let member (m : String × Bytes) := Text.Json.string (Bytes.ofAscii m.1) ++ Bytes.ofAscii ":" ++ m.2
  Bytes.line
    (Bytes.ofAscii "\x7b" ++ Bytes.joinWith (Bytes.ofAscii ",") (r.members.map member) ++
      Bytes.ofAscii "\x7d")

def render? (r : Report) : Format → Option Bytes
  | .text => r.text?
  | .json => some r.json

end Report

end Accumulator
