import Accumulator.Machine.Instr
import Accumulator.Piece
/-!
# Disassembly

The eight instructions that programs are made of, and the partition of any byte string into them.  A
byte at which none of them starts stands alone.
-/

namespace Accumulator.Machine

inductive Op where
  | zero
  | inc
  | dec
  | shl1
  | cqo
  | movRcx2
  | idivRcx
  | ret
  deriving DecidableEq, Repr

namespace Op

def instr : Op → Instr
  | zero => .xor .rax .rax
  | inc => .add .rax 1
  | dec => .sub .rax 1
  | shl1 => .shl .rax 1
  | cqo => .cqo
  | movRcx2 => .mov .rcx 2
  | idivRcx => .idiv .rcx
  | ret => .ret

def encoding (op : Op) : Bytes :=
  op.instr.encode

def all : List Op :=
  [zero, inc, dec, shl1, cqo, movRcx2, idivRcx, ret]

def find? (table : List Op) (code : Bytes) : Option Op :=
  table.find? fun op => op.encoding.isPrefixOf code

/-- How many bytes follow the first one of the instruction at the start of `code`. -/
def trailing (table : List Op) (code : Bytes) : Nat :=
  match find? table code with
  | some op => op.encoding.length - 1
  | none => 0

end Op

structure Decoded extends Piece where
  op : Option Op
  deriving DecidableEq, Repr

namespace Decoded

def ofPiece (table : List Op) (p : Piece) : Decoded :=
  ⟨p, Op.find? table p.bytes⟩

def text (d : Decoded) : Bytes :=
  match d.op with
  | some op => op.instr.text
  | none => Bytes.ofAscii "(bad)"

def hexDump (d : Decoded) : Bytes :=
  Bytes.joinWith [Bytes.space] (d.bytes.map Text.hexByteUpper)

def render (d : Decoded) : Bytes :=
  Text.hex Text.lowerTen 4 d.offset ++ Bytes.ofAscii "  " ++ Bytes.padRight 21 d.hexDump ++
    [Bytes.space] ++ d.text

end Decoded

def disassembleWith (table : List Op) (code : Bytes) : List Decoded :=
  (Piece.cut (Op.trailing table) code).map (Decoded.ofPiece table)

def disassemble (code : Bytes) : List Decoded :=
  disassembleWith Op.all code

end Accumulator.Machine
