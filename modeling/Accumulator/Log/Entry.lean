import Accumulator.Log.Level
import Accumulator.Text.Decimal
import Accumulator.Text.Json
/-!
# Log entries

What is logged, and which entries a log keeps: those of its level or above, and of each repeated
message the first hundred and then every hundredth.
-/

namespace Accumulator.Log

inductive Value where
  | number (n : Int)
  | text (t : Bytes)
  deriving DecidableEq, Repr

structure Entry where
  level : Level
  message : Bytes
  fields : List (Bytes × Value)
  deriving DecidableEq, Repr

def Value.render : Value → Bytes
  | number n => Text.decimal n
  | text t => t

/-- A text as a printed log shows it: bytes that are not UTF-8 become replacement characters. -/
def shown (text : Bytes) : Bytes :=
  (Piece.cut Text.Utf8.trailing text).flatMap fun p => Text.Utf8.encode (Text.Utf8.first p.bytes)

def Value.shown : Value → Value
  | number n => number n
  | text t => text (Log.shown t)

def Entry.printed (e : Entry) : Entry :=
  { e with
    message := shown e.message
    fields := e.fields.map fun field => (field.1, field.2.shown) }

def Value.json : Value → Bytes
  | number n => Text.decimal n
  | text t => Text.Json.string t

def Entry.line (e : Entry) : Bytes :=
  let member (name value : Bytes) := Text.Json.string name ++ Bytes.ofAscii ":" ++ value
  let members :=
    member (Bytes.ofAscii "level") (Text.Json.string e.level.name) ::
      member (Bytes.ofAscii "msg") (Text.Json.string e.message) ::
      e.fields.map fun field => member field.1 field.2.json
  Bytes.line
    (Bytes.ofAscii "\x7b" ++ Bytes.joinWith (Bytes.ofAscii ",") members ++ Bytes.ofAscii "\x7d")

def atLevel (threshold : Level) (entries : List Entry) : List Entry :=
  entries.filter fun e => threshold.enabledAt e.level

/-- How many entries of one message are kept before sampling sets in, and the distance between
those kept afterwards. -/
def samplingStep : Nat := 100

def sampled (n : Nat) : Bool :=
  n ≤ samplingStep || n % samplingStep == 0

abbrev Tally := List ((Level × Bytes) × Nat)

def Tally.count (t : Tally) (e : Entry) : Nat :=
  (t.lookup (e.level, e.message)).getD 0

def Tally.add (t : Tally) (e : Entry) : Tally :=
  ((e.level, e.message), t.count e + 1) :: t.filter fun item => item.1 != (e.level, e.message)

/-- The sampled entries of a log that has already seen those of `tally`; `kept` is newest first. -/
def sampleFrom (tally : Tally) (kept : List Entry) : List Entry → List Entry
  | [] => kept.reverse
  | e :: rest =>
      sampleFrom (tally.add e) (if sampled (tally.count e + 1) then e :: kept else kept) rest

def sample (entries : List Entry) : List Entry :=
  sampleFrom [] [] entries

end Accumulator.Log
