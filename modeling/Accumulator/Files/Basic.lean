import Accumulator.Repl.Read
/-!
# Files

What opening a path gives, and how a file is read.  A directory can be opened, but every attempt to
read it fails.
-/

namespace Accumulator

inductive OpenFailure where
  | missing
  | notDirectory
  | nameTooLong
  | invalidName
  deriving DecidableEq, Repr

inductive File where
  | regular (content : Bytes)
  | directory
  deriving DecidableEq, Repr

abbrev FileSystem := Bytes → Except OpenFailure File

namespace OpenFailure

def text : OpenFailure → Bytes
  | missing => Bytes.ofAscii "no such file or directory"
  | notDirectory => Bytes.ofAscii "not a directory"
  | nameTooLong => Bytes.ofAscii "file name too long"
  | invalidName => Bytes.ofAscii "invalid argument"

def message (f : OpenFailure) (path : Bytes) : Bytes :=
  Bytes.ofAscii "open " ++ path ++ Bytes.ofAscii ": " ++ f.text

end OpenFailure

namespace File

def directoryMessage (path : Bytes) : Bytes :=
  Bytes.ofAscii "read " ++ path ++ Bytes.ofAscii ": is a directory"

/-- What reading a file hands over.  A directory fails as often as it is read; `attempts` failures
are listed. -/
def items (attempts : Nat) (path : Bytes) : File → List Item
  | regular content => [.data content]
  | directory => List.replicate attempts (.failure (.plain (directoryMessage path)))

end File

end Accumulator
