import Accumulator.Bytes
/-!
# Regions

A region is a mapped piece of memory: its bytes and what may be done with them.
-/

namespace Accumulator

structure Protection where
  writable : Bool
  executable : Bool
  deriving DecidableEq, Repr

structure Region where
  bytes : Bytes
  protection : Protection
  deriving DecidableEq, Repr

namespace Protection

def readWrite : Protection := ⟨true, false⟩

def readExecute : Protection := ⟨false, true⟩

def readWriteExecute : Protection := ⟨true, true⟩

end Protection

namespace Region

def empty : Region := ⟨[], .readWrite⟩

def size (r : Region) : Nat :=
  r.bytes.length

def hasEntry (r : Region) : Bool :=
  r.size != 0

def fitting (r : Region) (data : Bytes) : Nat :=
  min data.length r.size

/-- Copies as much of `data` as fits to the start of the region. -/
def write (r : Region) (data : Bytes) : Region :=
  { r with bytes := data.take r.size ++ r.bytes.drop data.length }

def protect (r : Region) (protection : Protection) : Region :=
  { r with protection }

@[simp] theorem size_write (r : Region) (data : Bytes) : (r.write data).size = r.size := by
  simp only [size, write, List.length_append, List.length_take, List.length_drop]
  omega

end Region

end Accumulator
