import Accumulator.Failure
/-!
# Reading lines

Input arrives in items of any size, mixed with failures.  A read gathers bytes up to the next newline;
a failure or the end of the input cuts it short.  The cuts between items leave no trace, except that a
hundred items without a byte in a row count as a failure.
-/

namespace Accumulator

inductive Item where
  | data (bytes : Bytes)
  | failure (f : Failure)
  deriving DecidableEq, Repr

/-- What one read gives: the bytes up to and including a newline, or those before the failure that
cut it short. -/
structure Read where
  text : Bytes
  failure : Option Failure
  deriving DecidableEq, Repr

namespace Read

/-- Every read after the last item. -/
def atEnd : Read :=
  ⟨[], some .endOfInput⟩

/-- So many items without a byte, one after the other, are a failure. -/
def idleLimit : Nat := 100

def idleFailure : Failure :=
  .plain (Bytes.ofAscii "multiple Read calls return no data or error")

/-- Bytes gathered for the next read, newest first, and the empty items since the last byte. -/
structure Pending where
  gathered : Bytes := []
  idle : Nat := 0
  deriving DecidableEq, Repr

def Pending.cut (p : Pending) (f : Failure) : Read :=
  ⟨p.gathered.reverse, some f⟩

/-- Takes one byte; a newline completes a read.  `done` is newest first. -/
def takeByte (state : Pending × List Read) (b : UInt8) : Pending × List Read :=
  let gathered := b :: state.1.gathered
  if b = Bytes.newline then ({}, ⟨gathered.reverse, none⟩ :: state.2) else ({ gathered }, state.2)

def takeItem (state : Pending × List Read) : Item → Pending × List Read
  | .data [] =>
      if state.1.idle + 1 = idleLimit then ({}, state.1.cut idleFailure :: state.2)
      else ({ state.1 with idle := state.1.idle + 1 }, state.2)
  | .data bytes => bytes.foldl takeByte state
  | .failure f => ({}, state.1.cut f :: state.2)

/-- All reads of an input up to its last byte or failure.  Every later one is `atEnd`. -/
def ofItems (items : List Item) : List Read :=
  let (pending, done) := items.foldl takeItem ({}, [])
  let last := if pending.gathered = [] then [] else [pending.cut .endOfInput]
  (last ++ done).reverse

end Read

end Accumulator
