import Accumulator.Memory.Pages
/-!
# Hosts

A host lends regions and calls the code in them.  Requests are numbered, and each may be served in
its own way: any step of it may fail, a region may have another size than was asked for, and the
called code may abort.
-/

namespace Accumulator

inductive Invocation where
  | returned (value : Int64)
  | aborted (message : Bytes)
  deriving DecidableEq, Repr

namespace Invocation

def emulate (r : Region) : Invocation :=
  match Machine.emulate r.bytes with
  | .ok value => returned value
  | .error fault => aborted fault.message

end Invocation

/-- How one request is served.  Sealing settles the protection of a region and leaves its bytes
alone. -/
structure Service where
  acquire : Nat → Except Failure Region
  sealing : Region → Except Failure Protection
  invoke : Region → Invocation
  release : Region → Option Failure

/-- Whether code can be called here at all, and the service of each request. -/
structure Host where
  native : Bool
  serve : Nat → Service

namespace Host

/-- The host that maps pages; `kernels` answers the system calls of each request. -/
def pages (p : Pages) (kernels : Nat → Kernel) (invoke : Region → Invocation) : Host where
  native := true
  serve k :=
    { acquire := fun size => p.acquire (kernels k) size
      sealing := p.sealing (kernels k)
      invoke
      release := Pages.release (kernels k) }

def standard (writeXorExecute : Bool) : Host :=
  pages ⟨writeXorExecute⟩ (fun _ => .standard) Invocation.emulate

end Host

end Accumulator
