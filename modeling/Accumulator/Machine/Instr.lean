import Accumulator.Machine.Register
import Accumulator.Text.Decimal
/-!
# Instructions and their encoding

A handful of 64-bit instructions on registers, each with the bytes that the processor reads for it:
a REX byte, an opcode, a ModR/M byte in register mode and, for some, an immediate operand.
-/

namespace Accumulator.Machine

inductive Instr where
  | mov (dst : Register) (imm : Int32)
  | add (dst : Register) (imm : Int32)
  | sub (dst : Register) (imm : Int32)
  | xor (dst src : Register)
  | shl (dst : Register) (imm : UInt8)
  | idiv (divisor : Register)
  | cqo
  | ret
  deriving DecidableEq

def rex (reg rm : Bool) : UInt8 :=
  0x48 + (if reg then 4 else 0) + (if rm then 1 else 0)

def modRM (reg rm : UInt8) : UInt8 :=
  0xC0 + reg * 8 + rm

def littleEndian (w : UInt32) : Bytes :=
  [w.toUInt8, (w >>> 8).toUInt8, (w >>> 16).toUInt8, (w >>> 24).toUInt8]

/-- Immediates that fit one signed byte have a short form. -/
def fitsByte (imm : Int32) : Bool :=
  -128 ≤ imm.toInt && imm.toInt ≤ 127

/-- An arithmetic operation with an immediate operand; `extension` tells the operations apart. -/
def encodeArith (extension : UInt8) (dst : Register) (imm : Int32) : Bytes :=
  let modrm := modRM extension dst.lowBits
  if fitsByte imm then [rex false dst.isExtended, 0x83, modrm, imm.toUInt32.toUInt8]
  else [rex false dst.isExtended, 0x81, modrm] ++ littleEndian imm.toUInt32

namespace Instr

def encode : Instr → Bytes
  | mov dst imm =>
      [rex false dst.isExtended, 0xC7, modRM 0 dst.lowBits] ++ littleEndian imm.toUInt32
  | add dst imm => encodeArith 0 dst imm
  | sub dst imm => encodeArith 5 dst imm
  | xor dst src => [rex src.isExtended dst.isExtended, 0x31, modRM src.lowBits dst.lowBits]
  | shl dst imm =>
      if imm = 1 then [rex false dst.isExtended, 0xD1, modRM 4 dst.lowBits]
      else [rex false dst.isExtended, 0xC1, modRM 4 dst.lowBits, imm]
  | idiv divisor => [rex false divisor.isExtended, 0xF7, modRM 7 divisor.lowBits]
  | cqo => [0x48, 0x99]
  | ret => [0xC3]

def operation (mnemonic : String) (operands : List Bytes) : Bytes :=
  Bytes.ofAscii mnemonic ++ [Bytes.space] ++ Bytes.joinWith (Bytes.ofAscii ", ") operands

def text : Instr → Bytes
  | mov dst imm => operation "mov" [dst.name, Text.decimal imm.toInt]
  | add dst imm => operation "add" [dst.name, Text.decimal imm.toInt]
  | sub dst imm => operation "sub" [dst.name, Text.decimal imm.toInt]
  | xor dst src => operation "xor" [dst.name, src.name]
  | shl dst imm => operation "shl" [dst.name, Text.decimalNat imm.toNat]
  | idiv divisor => operation "idiv" [divisor.name]
  | cqo => Bytes.ofAscii "cqo"
  | ret => Bytes.ofAscii "ret"

end Instr

structure Assembler where
  code : Bytes := []
  deriving DecidableEq

namespace Assembler

def size (a : Assembler) : Nat :=
  a.code.length

def emit (a : Assembler) (i : Instr) : Assembler :=
  ⟨a.code ++ i.encode⟩

def reset (_ : Assembler) : Assembler :=
  {}

def emitAll (a : Assembler) (is : List Instr) : Assembler :=
  is.foldl emit a

end Assembler

end Accumulator.Machine
