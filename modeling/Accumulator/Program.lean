import Accumulator.Machine.Op
import Accumulator.Token
/-!
# Compiled programs

A program clears the accumulator, runs one fragment for each token that acts on it, and returns.  The
fragment depends on the kind of the token alone.
-/

namespace Accumulator

open Machine

structure Mapping where
  codeOffset : Int
  token : Token
  deriving DecidableEq, Repr

structure Program where
  code : Bytes := []
  sourceMap : List Mapping := []
  deriving DecidableEq, Repr

/-- The instructions of one token.  Halving divides by two with `idiv`, which rounds toward zero. -/
def Kind.fragment : Kind → List Op
  | .increment => [.inc]
  | .decrement => [.dec]
  | .double => [.shl1]
  | .halve => [.cqo, .movRcx2, .idivRcx]
  | _ => []

def Kind.code (k : Kind) : Bytes :=
  k.fragment.flatMap Op.encoding

namespace Program

/-- The mappings of tokens whose code starts at `offset`, after those already `found`, which are
newest first. -/
def mappingsFrom (offset : Nat) (found : List Mapping) : List Token → List Mapping
  | [] => found.reverse
  | t :: rest =>
      let size := t.kind.code.length
      mappingsFrom (offset + size) (if size = 0 then found else ⟨offset, t⟩ :: found) rest

def encode (tokens : List Token) : Program where
  code := Op.zero.encoding ++ tokens.flatMap (·.kind.code) ++ Op.ret.encoding
  sourceMap := mappingsFrom Op.zero.encoding.length [] tokens

def compile (source : Bytes) : Program :=
  encode (Token.scan source)

end Program

end Accumulator
