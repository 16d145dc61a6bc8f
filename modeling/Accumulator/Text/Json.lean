import Accumulator.Piece
import Accumulator.Text.Decimal
import Accumulator.Text.Utf8
/-!
# JSON strings

Strings as they stand in a JSON text that may be placed in a web page: besides what JSON itself
demands, angle brackets, ampersands and the two Unicode line ends are escaped.
-/

namespace Accumulator.Text.Json

def escapeCode (c : Nat) : Bytes :=
  Bytes.ofAscii "\\u" ++ hexFixed lowerTen 4 c

def shortEscapes : List (Char × String) :=
  [('"', "\\\""), ('\\', "\\\\"), ('\n', "\\n"), ('\r', "\\r"), ('\t', "\\t")]

/-- The characters that are written by their codes, besides the controls. -/
def coded : List Nat :=
  ['<'.toNat, '>'.toNat, '&'.toNat, 0x2028, 0x2029]

def escapeChar (c : Nat) : Bytes :=
  match shortEscapes.find? fun escape => escape.1.toNat == c with
  | some escape => Bytes.ofAscii escape.2
  | none => if c < 0x20 ∨ c ∈ coded then escapeCode c else Utf8.encode c

/-- One piece of a text inside a JSON string; a byte that is not UTF-8 is escaped as the replacement
character. -/
def escapePiece (p : Piece) : Bytes :=
  match Utf8.decode? p.bytes with
  | some c => escapeChar c
  | none => escapeCode Utf8.replacement

def string (text : Bytes) : Bytes :=
  let quote := Bytes.ofAscii "\""
  quote ++ (Piece.cut Utf8.trailing text).flatMap escapePiece ++ quote

end Accumulator.Text.Json
