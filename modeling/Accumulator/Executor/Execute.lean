import Accumulator.Executor.Host
import Accumulator.Log.Entry
/-!
# Executing code

An executor copies code into a region of its own, seals it, calls it and gives the region back,
whatever happens on the way.  It counts what it does and reports every step.
-/

namespace Accumulator

structure Counters where
  acquired : Nat := 0
  released : Nat := 0
  invoked : Nat := 0
  failures : Nat := 0
  deriving DecidableEq, Repr

/-- The steps of an execution.  A region is shown as it is when the step begins, and what the host
grants is shown with the request. -/
inductive Event where
  | acquire (size : Nat) (granted : Option Region)
  | write (region : Region) (code : Bytes)
  | sealing (region : Region) (granted : Option Protection)
  | invoke (region : Region)
  | release (region : Region)
  deriving DecidableEq, Repr

inductive Verdict where
  | value (v : Int64)
  | failed (f : Failure)
  | aborted (message : Bytes)
  deriving DecidableEq, Repr

structure Call where
  verdict : Verdict
  events : List Event := []
  log : List Log.Entry := []
  deriving DecidableEq, Repr

structure Executor where
  host : Host
  requests : Nat := 0
  counters : Counters := {}

namespace Executor

def returnByte : UInt8 := 0xC3

def countAcquired (e : Executor) : Executor :=
  { e with counters.acquired := e.counters.acquired + 1 }

def countReleased (e : Executor) : Executor :=
  { e with counters.released := e.counters.released + 1 }

def countInvoked (e : Executor) : Executor :=
  { e with counters.invoked := e.counters.invoked + 1 }

def countFailure (e : Executor) : Executor :=
  { e with counters.failures := e.counters.failures + 1 }

def shortRegion (size : Nat) : Failure :=
  .allocation (Bytes.ofAscii "mmap") size
    (.plain (Bytes.ofAscii "region smaller than instruction buffer"))

def executedEntry (size : Nat) (value : Int64) : Log.Entry where
  level := .debug
  message := Bytes.ofAscii "executed"
  fields :=
    [(Bytes.ofAscii "size", .number size), (Bytes.ofAscii "result", .number value.toInt)]

def releaseEntry (size : Nat) (f : Failure) : Log.Entry where
  level := .warn
  message := Bytes.ofAscii "failed to release executable region"
  fields := [(Bytes.ofAscii "size", .number size), (Bytes.ofAscii "error", .text f.message)]

/-- Gives the region back at the end of a call.  A failure to do so is logged and changes nothing
else. -/
def finish (e : Executor) (service : Service) (region : Region) (call : Call) : Call × Executor :=
  let warning :=
    match service.release region with
    | some f => [releaseEntry region.size f]
    | none => []
  ({ call with events := call.events ++ [.release region], log := call.log ++ warning },
    e.countReleased)

def callSealed (e : Executor) (service : Service) (code : Bytes) (region : Region)
    (events : List Event) : Call × Executor :=
  let events := events ++ [.invoke region]
  match service.invoke region with
  | .returned value =>
      e.countInvoked.finish service region ⟨.value value, events, [executedEntry code.length value]⟩
  | .aborted message => e.finish service region ⟨.aborted message, events, []⟩

def useRegion (e : Executor) (service : Service) (code : Bytes) (region : Region) :
    Call × Executor :=
  let acquired := Event.acquire code.length (some region)
  if region.size < code.length then
    e.countFailure.finish service region ⟨.failed (shortRegion code.length), [acquired], []⟩
  else
    let written := region.write code
    let events := [acquired, .write region code]
    match service.sealing written with
    | .error f =>
        e.countFailure.finish service written ⟨.failed f, events ++ [.sealing written none], []⟩
    | .ok protection =>
        e.callSealed service code (written.protect protection)
          (events ++ [.sealing written (some protection)])

/-- Executes code.  Only its last byte is looked at before it is called. -/
def execute (e : Executor) (code : Bytes) : Call × Executor :=
  if code.getLast? ≠ some returnByte then (⟨.failed .invalidCode, [], []⟩, e)
  else if e.host.native = false then (⟨.failed .unsupported, [], []⟩, e)
  else
    let service := e.host.serve e.requests
    let e := { e with requests := e.requests + 1 }
    match service.acquire code.length with
    | .error f => (⟨.failed f, [.acquire code.length none], []⟩, e.countFailure)
    | .ok region => e.countAcquired.useRegion service code region

end Executor

end Accumulator
