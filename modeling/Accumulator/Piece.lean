import Accumulator.Bytes
/-!
# Cutting a byte string into pieces

Characters of a text and instructions of a code are found in the same way: from the left, each
piece is one byte and as many of those after it as the bytes at that place call for.
-/

namespace Accumulator

structure Piece where
  offset : Nat
  head : UInt8
  tail : Bytes
  deriving DecidableEq, Repr

namespace Piece

def bytes (p : Piece) : Bytes :=
  p.head :: p.tail

/-- The end of `cut`: `skip` bytes belong to the newest piece, and `found` holds the pieces so far,
newest first. -/
def cutFrom (trailing : Bytes → Nat) (offset skip : Nat) (found : List Piece) : Bytes → List Piece
  | [] => found.reverse
  | b :: rest =>
      match skip with
      | skip + 1 => cutFrom trailing (offset + 1) skip found rest
      | 0 =>
          let more := trailing (b :: rest)
          cutFrom trailing (offset + 1) more (⟨offset, b, rest.take more⟩ :: found) rest

/-- Cuts all of `bytes` into pieces; `trailing` says how many bytes follow the first one of the
piece at the start of its argument. -/
def cut (trailing : Bytes → Nat) (bytes : Bytes) : List Piece :=
  cutFrom trailing 0 0 [] bytes

end Piece

end Accumulator
