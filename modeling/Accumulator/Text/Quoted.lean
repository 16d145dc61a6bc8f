import Accumulator.Piece
import Accumulator.Text.Decimal
import Accumulator.Text.Printable
import Accumulator.Text.Utf8
/-!
# Quoted characters and strings

Printable characters stand for themselves inside quotes and all others are escaped, so that a quoted
text is always one line of printable UTF-8.
-/

namespace Accumulator.Text

def singleQuote : UInt8 := Bytes.ofChar '\''

def doubleQuote : UInt8 := Bytes.ofChar '"'

def backslash : UInt8 := Bytes.ofChar '\\'

def shortEscape? : Nat → Option Char
  | 7 => some 'a'
  | 8 => some 'b'
  | 9 => some 't'
  | 10 => some 'n'
  | 11 => some 'v'
  | 12 => some 'f'
  | 13 => some 'r'
  | _ => none

def escapeChar (quote : UInt8) (c : Nat) : Bytes :=
  if c = quote.toNat ∨ c = backslash.toNat then backslash :: Utf8.encode c
  else if isPrintable c then Utf8.encode c
  else
    match shortEscape? c with
    | some letter => [backslash, Bytes.ofChar letter]
    | none =>
        if c < 0x20 ∨ c = 0x7F then Bytes.ofAscii "\\x" ++ hexFixed lowerTen 2 c
        else if c < 0x10000 then Bytes.ofAscii "\\u" ++ hexFixed lowerTen 4 c
        else Bytes.ofAscii "\\U" ++ hexFixed lowerTen 8 c

/-- A character between single quotes.  Numbers that are no scalar value read as the replacement
character. -/
def quoteChar (c : Int) : Bytes :=
  let scalar := if 0 ≤ c ∧ Utf8.IsScalar c.toNat then c.toNat else Utf8.replacement
  [singleQuote] ++ escapeChar singleQuote scalar ++ [singleQuote]

def quotePiece (p : Piece) : Bytes :=
  match Utf8.decode? p.bytes with
  | some c => escapeChar doubleQuote c
  | none => Bytes.ofAscii "\\x" ++ hexByte p.head

/-- A text between double quotes, where a byte that is not UTF-8 is escaped by its value. -/
def quote (text : Bytes) : Bytes :=
  [doubleQuote] ++ (Piece.cut Utf8.trailing text).flatMap quotePiece ++ [doubleQuote]

end Accumulator.Text
