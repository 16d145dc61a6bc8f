import Accumulator.Piece
import Accumulator.Text.Utf8
/-!
# Tokens

Every character of a source is a token.  Four of them act on the accumulator and all others are
ignored.
-/

namespace Accumulator

/-- What a token does.  `other` is a kind that no character has. -/
inductive Kind where
  | ignored
  | increment
  | decrement
  | double
  | halve
  | other (code : Int)
  deriving DecidableEq, Repr

structure Token where
  kind : Kind
  char : Int
  offset : Int
  deriving DecidableEq, Repr

namespace Kind

def ofCode : Int → Kind
  | 0 => ignored
  | 1 => increment
  | 2 => decrement
  | 3 => double
  | 4 => halve
  | code => other code

def ofChar (char : Int) : Kind :=
  if char = '+'.toNat then increment
  else if char = '-'.toNat then decrement
  else if char = '*'.toNat then double
  else if char = '/'.toNat then halve
  else ignored

end Kind

namespace Token

def ofPiece (p : Piece) : Token :=
  let char := Text.Utf8.first p.bytes
  ⟨Kind.ofChar char, char, p.offset⟩

def scan (source : Bytes) : List Token :=
  (Piece.cut Text.Utf8.trailing source).map ofPiece

end Token

end Accumulator
