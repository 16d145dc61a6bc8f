import Accumulator.Bytes
/-!
# Registers

The sixteen general registers, by number.  Other numbers are carried along: they have no name, and
only their low three bits reach the code.
-/

namespace Accumulator.Machine

structure Register where
  code : Int
  deriving DecidableEq, Repr

namespace Register

def rax : Register := ⟨0⟩

def rcx : Register := ⟨1⟩

def names : List String :=
  ["rax", "rcx", "rdx", "rbx", "rsp", "rbp", "rsi", "rdi",
   "r8", "r9", "r10", "r11", "r12", "r13", "r14", "r15"]

def name (r : Register) : Bytes :=
  if 0 ≤ r.code then Bytes.ofAscii (names.getD r.code.toNat "???") else Bytes.ofAscii "???"

/-- The upper eight registers need a bit of the REX byte. -/
def isExtended (r : Register) : Bool :=
  8 ≤ r.code && r.code ≤ 15

def lowBits (r : Register) : UInt8 :=
  (r.code % 8).toNat.toUInt8

def Valid (r : Register) : Prop :=
  0 ≤ r.code ∧ r.code ≤ 15

instance (r : Register) : Decidable r.Valid :=
  inferInstanceAs (Decidable (_ ∧ _))

end Register

end Accumulator.Machine
