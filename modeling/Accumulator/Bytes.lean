/-!
# Byte strings

Sources, machine code, messages and output are all byte strings: a program text need not be valid
UTF-8, and what is written back must show the same bytes.  They are lists, so that every function on
them can be followed by induction.
-/

namespace Accumulator

abbrev Bytes := List UInt8

namespace Bytes

/-- The byte of a character below U+0080. -/
def ofChar (c : Char) : UInt8 :=
  c.toNat.toUInt8

/-- The bytes of a text all of whose characters are below U+0080, as every literal of this library is. -/
def ofAscii (text : String) : Bytes :=
  text.toList.map ofChar

def newline : UInt8 := ofChar '\n'

def space : UInt8 := ofChar ' '

def line (text : Bytes) : Bytes :=
  text ++ [newline]

def joinWith (separator : Bytes) : List Bytes → Bytes
  | [] => []
  | part :: parts => part ++ parts.flatMap (separator ++ ·)

def padRight (width : Nat) (text : Bytes) : Bytes :=
  text ++ List.replicate (width - text.length) space

theorem length_padRight (width : Nat) (text : Bytes) :
    (padRight width text).length = max width text.length := by
  simp only [padRight, List.length_append, List.length_replicate]
  omega

end Bytes

end Accumulator
