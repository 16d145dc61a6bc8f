import Accumulator.Bytes
/-!
# Numerals

Decimal numerals of any integer and hexadecimal numerals with a least width.
-/

namespace Accumulator.Text

def decimalNat (n : Nat) : Bytes :=
  (Nat.toDigits 10 n).map Bytes.ofChar

def decimal (n : Int) : Bytes :=
  if n < 0 then Bytes.ofChar '-' :: decimalNat n.natAbs else decimalNat n.natAbs

/-- The digit of value `d`, where `ten` is the letter that stands for ten. -/
def hexDigit (ten : UInt8) (d : Nat) : UInt8 :=
  if d < 10 then Bytes.ofChar '0' + d.toUInt8 else ten + (d - 10).toUInt8

def lowerTen : UInt8 := Bytes.ofChar 'a'

def upperTen : UInt8 := Bytes.ofChar 'A'

/-- The last `width` hexadecimal digits of `n`. -/
def hexFixed (ten : UInt8) : Nat → Nat → Bytes
  | 0, _ => []
  | width + 1, n => hexFixed ten width (n / 16) ++ [hexDigit ten (n % 16)]

/-- How many hexadecimal digits `n` has, counting none for zero. -/
def hexLength (n : Nat) : Nat :=
  if n = 0 then 0 else n.log2 / 4 + 1

def hex (ten : UInt8) (width n : Nat) : Bytes :=
  hexFixed ten (max width (hexLength n)) n

def hexByte (b : UInt8) : Bytes :=
  hexFixed lowerTen 2 b.toNat

def hexByteUpper (b : UInt8) : Bytes :=
  hexFixed upperTen 2 b.toNat

@[simp] theorem length_hexFixed (ten : UInt8) (width n : Nat) :
    (hexFixed ten width n).length = width := by
  induction width generalizing n with
  | zero => rfl
  | succ width ih => simp [hexFixed, ih]

end Accumulator.Text
