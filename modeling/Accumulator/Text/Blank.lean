import Accumulator.Piece
import Accumulator.Text.Utf8
/-!
# Blanks and words

The white space characters of Unicode, and the words that they separate.  A byte that is not UTF-8
is part of a word.
-/

namespace Accumulator.Text

/-- The characters with the Unicode property White_Space. -/
def isBlank (c : Nat) : Bool :=
  (9 ≤ c && c ≤ 13) || c == 0x20 || c == 0x85 || c == 0xA0 || c == 0x1680 ||
    (0x2000 ≤ c && c ≤ 0x200A) || c == 0x2028 || c == 0x2029 || c == 0x202F || c == 0x205F ||
    c == 0x3000

def blankPiece (p : Piece) : Bool :=
  isBlank (Utf8.first p.bytes)

def allBlank (text : Bytes) : Bool :=
  (Piece.cut Utf8.trailing text).all blankPiece

def firstWord (text : Bytes) : Bytes :=
  (((Piece.cut Utf8.trailing text).dropWhile blankPiece).takeWhile fun p => !blankPiece p).flatMap
    Piece.bytes

end Accumulator.Text
