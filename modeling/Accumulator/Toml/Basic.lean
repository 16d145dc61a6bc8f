import Accumulator.Toml.Moment
/-!
# Documents

A document is a sequence of statements: assignments and table headers.  Values are kept as far as
settings need them, that is strings and booleans; of a date or time only the way it is written is
kept, and of others it is only known whether they hold an inline table that defines a key twice.
-/

namespace Accumulator.Toml

structure Key where
  first : Bytes
  more : List Bytes
  deriving DecidableEq, Repr

def Key.parts (k : Key) : List Bytes :=
  k.first :: k.more

inductive Value where
  | string (text : Bytes)
  | bool (b : Bool)
  | moment (m : Moment)
  | other (clash : Bool)
  deriving DecidableEq, Repr

/-- Whether the value holds an inline table that defines a key twice. -/
def Value.clashes : Value → Bool
  | other clash => clash
  | _ => false

inductive Statement where
  | assign (key : Key) (value : Value)
  | table (key : Key)
  | arrayTable (key : Key)
  deriving DecidableEq, Repr

/-- The statements of a document up to its first fault, and whether it has none. -/
structure Document where
  statements : List Statement
  sound : Bool
  deriving DecidableEq, Repr

end Accumulator.Toml
