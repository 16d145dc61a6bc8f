import Accumulator.Bytes
/-!
# UTF-8

Encoding of scalar values, and decoding from the left of any byte string.  A byte at which no
well-formed sequence starts stands alone and reads as the replacement character.
-/

namespace Accumulator.Text.Utf8

def replacement : Nat := 0xFFFD

/-- Scalar values are the code points that are not surrogates. -/
def IsScalar (c : Nat) : Prop :=
  c < 0xD800 ∨ 0xDFFF < c ∧ c < 0x110000

instance (c : Nat) : Decidable (IsScalar c) :=
  inferInstanceAs (Decidable (_ ∨ _ ∧ _))

def tailByte (c : Nat) : UInt8 :=
  (0x80 + c % 64).toUInt8

def encode (c : Nat) : Bytes :=
  if c < 0x80 then [c.toUInt8]
  else if c < 0x800 then [(0xC0 + c / 64).toUInt8, tailByte c]
  else if c < 0x10000 then [(0xE0 + c / 4096).toUInt8, tailByte (c / 64), tailByte c]
  else [(0xF0 + c / 262144).toUInt8, tailByte (c / 4096), tailByte (c / 64), tailByte c]

def sixBits (bytes : Bytes) (i : Nat) : Nat :=
  (bytes.getD i 0).toNat % 64

/-- The only code point that can start `bytes`, read off the length class of the first byte. -/
def candidate (bytes : Bytes) : Nat :=
  let lead := (bytes.headD 0).toNat
  if lead < 0xC0 then lead
  else if lead < 0xE0 then lead % 32 * 64 + sixBits bytes 1
  else if lead < 0xF0 then (lead % 16 * 64 + sixBits bytes 1) * 64 + sixBits bytes 2
  else ((lead % 8 * 64 + sixBits bytes 1) * 64 + sixBits bytes 2) * 64 + sixBits bytes 3

def decode? (bytes : Bytes) : Option Nat :=
  let c := candidate bytes
  if IsScalar c ∧ (encode c).isPrefixOf bytes then some c else none

def first (bytes : Bytes) : Nat :=
  (decode? bytes).getD replacement

/-- How many bytes follow the first one in the character at the start of `bytes`. -/
def trailing (bytes : Bytes) : Nat :=
  match decode? bytes with
  | some c => (encode c).length - 1
  | none => 0

end Accumulator.Text.Utf8
