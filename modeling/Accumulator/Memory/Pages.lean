import Accumulator.Failure
import Accumulator.Memory.Region
/-!
# Page memory

Regions mapped by the operating system.  In the strict discipline a region is writable until it is
sealed and executable afterwards, never both; otherwise it is both from the start and sealing does
nothing.  A system call either does what it is asked or is refused without effect.
-/

namespace Accumulator

inductive SystemCall where
  | map (size : Int) (protection : Protection)
  | protect (size : Nat) (protection : Protection)
  | unmap (size : Nat)
  deriving DecidableEq, Repr

/-- How a kernel answers: the reason for which a call is refused, if it is. -/
abbrev Kernel := SystemCall → Option Failure

def mappingLimit : Int := 2147483648

/-- A kernel that refuses only what cannot be done. -/
def Kernel.standard : Kernel
  | .map size _ =>
      if size ≤ 0 then some (.plain (Bytes.ofAscii "invalid argument"))
      else if mappingLimit ≤ size then some (.plain (Bytes.ofAscii "cannot allocate memory"))
      else none
  | .protect size _ => if size = 0 then some (.plain (Bytes.ofAscii "invalid argument")) else none
  | .unmap _ => none

structure Pages where
  writeXorExecute : Bool
  deriving DecidableEq, Repr

namespace Pages

def initial (p : Pages) : Protection :=
  if p.writeXorExecute then .readWrite else .readWriteExecute

def acquire (p : Pages) (kernel : Kernel) (size : Int) : Except Failure Region :=
  match kernel (.map size p.initial) with
  | some refusal => .error (.allocation (Bytes.ofAscii "mmap") size refusal)
  | none => .ok ⟨List.replicate size.toNat 0, p.initial⟩

def sealCall? (p : Pages) (r : Region) : Option SystemCall :=
  if p.writeXorExecute then some (.protect r.size .readExecute) else none

def sealing (p : Pages) (kernel : Kernel) (r : Region) : Except Failure Protection :=
  match p.sealCall? r with
  | none => .ok r.protection
  | some call =>
      match kernel call with
      | some refusal => .error (.allocation (Bytes.ofAscii "mprotect") r.size refusal)
      | none => .ok .readExecute

/-- The call that gives a region back; an empty one was never mapped. -/
def releaseCall? (r : Region) : Option SystemCall :=
  if r.size = 0 then none else some (.unmap r.size)

def release (kernel : Kernel) (r : Region) : Option Failure :=
  (releaseCall? r).bind kernel

end Pages

/-! ## Histories of one region -/

/-- A current region, and the system calls made for it, newest first. -/
structure Memory where
  region : Region := .empty
  calls : List SystemCall := []
  deriving DecidableEq, Repr

namespace Memory

inductive Step where
  | acquire (size : Int)
  | write (data : Bytes)
  | sealing
  | release
  deriving DecidableEq, Repr

/-- One step on the current region, with the failure it meets.  A failed acquisition leaves the
region as it is, and a released region is empty. -/
def step (p : Pages) (kernel : Kernel) (m : Memory) : Step → Option Failure × Memory
  | .acquire size =>
      let calls := .map size p.initial :: m.calls
      match p.acquire kernel size with
      | .error f => (some f, { m with calls })
      | .ok region => (none, ⟨region, calls⟩)
  | .write data => (none, { m with region := m.region.write data })
  | .sealing =>
      let calls := (p.sealCall? m.region).toList ++ m.calls
      match p.sealing kernel m.region with
      | .error f => (some f, { m with calls })
      | .ok protection => (none, ⟨m.region.protect protection, calls⟩)
  | .release =>
      match Pages.releaseCall? m.region with
      | none => (none, m)
      | some call => (kernel call, ⟨.empty, call :: m.calls⟩)

end Memory

end Accumulator
