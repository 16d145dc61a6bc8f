import Std.Data.HashMap
import Accumulator.Program
import Accumulator.Text.Quoted
/-!
# Listings

The text of a program: one line per instruction, with a comment line in front of each instruction at
which the code of a token starts.
-/

namespace Accumulator

open Machine

namespace Kind

def name : Kind → Bytes
  | ignored => Bytes.ofAscii "Ignored"
  | increment => Bytes.ofAscii "Increment"
  | decrement => Bytes.ofAscii "Decrement"
  | double => Bytes.ofAscii "Double"
  | halve => Bytes.ofAscii "Halve"
  | other code => Bytes.ofAscii "Kind(" ++ Text.decimal code ++ Bytes.ofAscii ")"

end Kind

namespace Token

def render (t : Token) : Bytes :=
  t.kind.name ++ Bytes.ofAscii "(" ++ Text.quoteChar t.char ++ Bytes.ofAscii ")@" ++
    Text.decimal t.offset

def comment (t : Token) : Bytes :=
  Bytes.ofAscii "; " ++ Text.quoteChar t.char ++ Bytes.ofAscii " @" ++ Text.decimal t.offset ++
    [Bytes.space] ++ t.kind.name

end Token

namespace Program

/-- The tokens by code offset.  Of several mappings of one offset the last counts. -/
def marks (p : Program) : Std.HashMap Int Token :=
  p.sourceMap.foldl (fun marks m => marks.insert m.codeOffset m.token) ∅

def listingOf (marks : Std.HashMap Int Token) (d : Decoded) : Bytes :=
  match marks[(d.offset : Int)]? with
  | some t => Bytes.line t.comment ++ Bytes.line d.render
  | none => Bytes.line d.render

def listing (p : Program) : Bytes :=
  let marks := p.marks
  (disassemble p.code).flatMap (listingOf marks)

end Program

end Accumulator
