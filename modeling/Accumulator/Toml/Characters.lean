import Accumulator.Text.Utf8
/-!
# Characters of a document

The classes of characters that the parts of a document are made of, and the smallest readers, which
give what follows what they have read.
-/

namespace Accumulator.Toml

def lineFeed : UInt8 := Bytes.ofChar '\n'

def carriageReturn : UInt8 := Bytes.ofChar '\r'

def isSpace (b : UInt8) : Bool :=
  b == Bytes.ofChar ' ' || b == Bytes.ofChar '\t'

def isLineEnd (b : UInt8) : Bool :=
  b == lineFeed || b == carriageReturn

def between (first last : Char) (b : UInt8) : Bool :=
  Bytes.ofChar first ≤ b && b ≤ Bytes.ofChar last

def isDigit (b : UInt8) : Bool :=
  between '0' '9' b

def skipSpaces (input : Bytes) : Bytes :=
  input.dropWhile isSpace

def startsWith (c : Char) (input : Bytes) : Bool :=
  input.head? == some (Bytes.ofChar c)

def expect? (c : Char) (input : Bytes) : Option Bytes :=
  if startsWith c input then some input.tail else none

def word? (word : String) (input : Bytes) : Option Bytes :=
  let bytes := Bytes.ofAscii word
  if bytes.isPrefixOf input then some (input.drop bytes.length) else none

def newline? : Bytes → Option Bytes
  | [] => none
  | b :: rest =>
      if b = lineFeed then some rest
      else if b = carriageReturn ∧ rest.head? = some lineFeed then some rest.tail
      else none

/-- Texts and comments hold no control characters but tabs and line ends. -/
def isTextChar (c : Nat) : Bool :=
  (0x20 ≤ c && c != 0x7F) || c == '\t'.toNat || c == '\n'.toNat || c == '\r'.toNat

/-- The bytes after the first one of the character with which a text or a comment goes on. -/
def textChar? (input : Bytes) : Option Bytes :=
  match Text.Utf8.decode? input with
  | some c => if isTextChar c then some (input.tail.take (Text.Utf8.trailing input)) else none
  | none => none

end Accumulator.Toml
