import Accumulator.Executor.Host
/-!
# Scripted hosts

Hosts whose failures are laid down in advance, one script entry for each request.
-/

namespace Accumulator

/-- The failures of one request, and by how many bytes its region is shorter than asked for. -/
structure ScriptEntry where
  acquireFailure : Option Failure := none
  sealFailure : Option Failure := none
  releaseFailure : Option Failure := none
  short : Int := 0
  deriving DecidableEq, Repr

namespace ScriptEntry

/-- The service of one request.  Regions are zeros, and empty where the script leaves no byte. -/
def service (s : ScriptEntry) (invoke : Region → Invocation) : Service where
  acquire size :=
    match s.acquireFailure with
    | some f => .error f
    | none => .ok ⟨List.replicate (size - s.short).toNat 0, .readWriteExecute⟩
  sealing r :=
    match s.sealFailure with
    | some f => .error f
    | none => .ok r.protection
  invoke := invoke
  release _ := s.releaseFailure

end ScriptEntry

/-- The host that follows `script` and serves every request after its end without failure. -/
def Host.scripted (script : List ScriptEntry) (native : Bool) (invoke : Region → Invocation) :
    Host where
  native := native
  serve k := (script.getD k {}).service invoke

end Accumulator
