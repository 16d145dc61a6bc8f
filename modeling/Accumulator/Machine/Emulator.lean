import Accumulator.Machine.Op
/-!
# Emulation

A machine with the three registers that programs use.  It runs the recognised instructions in order
until the first `ret`, and stops with a fault at anything it cannot do.
-/

namespace Accumulator.Machine

structure Registers where
  rax : Int64 := 0
  rcx : Int64 := 0
  rdx : Int64 := 0
  deriving DecidableEq, Repr

inductive Fault where
  | divideByZero (offset : Nat)
  | wideDividend (offset : Nat)
  | unknownByte (byte : UInt8) (offset : Nat)
  | noReturn
  deriving DecidableEq, Repr

namespace Fault

def position (offset : Nat) : Bytes :=
  Bytes.ofAscii " at " ++ Text.hex Text.lowerTen 4 offset

def message : Fault → Bytes
  | divideByZero offset => Bytes.ofAscii "jit: divide by zero" ++ position offset
  | wideDividend offset => Bytes.ofAscii "jit: unsupported 128-bit dividend" ++ position offset
  | unknownByte byte offset =>
      Bytes.ofAscii "jit: cannot emulate byte " ++ Text.hexByteUpper byte ++ position offset
  | noReturn => Bytes.ofAscii "jit: code runs past end without ret"

end Fault

inductive Step where
  | next (registers : Registers)
  | done (value : Int64)
  | stop (fault : Fault)
  deriving DecidableEq, Repr

namespace Registers

def signOfRax (r : Registers) : Int64 :=
  if r.rax < 0 then -1 else 0

/-- Division of the pair `rdx`, `rax` by `rcx`, for pairs that are one sign-extended word. -/
def divide (r : Registers) (offset : Nat) : Step :=
  if r.rcx = 0 then .stop (.divideByZero offset)
  else if r.rdx ≠ r.signOfRax then .stop (.wideDividend offset)
  else .next { r with rax := r.rax / r.rcx, rdx := r.rax % r.rcx }

def step (r : Registers) (d : Decoded) : Step :=
  match d.op with
  | some .zero => .next { r with rax := 0 }
  | some .inc => .next { r with rax := r.rax + 1 }
  | some .dec => .next { r with rax := r.rax - 1 }
  | some .shl1 => .next { r with rax := r.rax <<< 1 }
  | some .cqo => .next { r with rdx := r.signOfRax }
  | some .movRcx2 => .next { r with rcx := 2 }
  | some .idivRcx => r.divide d.offset
  | some .ret => .done r.rax
  | none => .stop (.unknownByte d.head d.offset)

def run (r : Registers) : List Decoded → Except Fault Int64
  | [] => .error .noReturn
  | d :: rest =>
      match r.step d with
      | .next r => r.run rest
      | .done value => .ok value
      | .stop fault => .error fault

end Registers

def emulate (code : Bytes) : Except Fault Int64 :=
  Registers.run {} (disassemble code)

end Accumulator.Machine
