import Accumulator.Machine.Emulator
/-!
# Failures

Everything that can go wrong, as causes.  A failure may stand on another one, and the questions that
callers ask look through the whole chain.
-/

namespace Accumulator

inductive Failure where
  | plain (message : Bytes)
  | unknown
  | endOfInput
  | unsupported
  /-- The code is empty or does not end in `ret`. -/
  | invalidCode
  | emulation (fault : Machine.Fault)
  | allocation (operation : Bytes) (size : Int) (cause : Failure)
  | context (text : Bytes) (cause : Failure)
  | reading (line : Nat) (cause : Failure)
  | program (line : Nat) (source : Bytes) (cause : Failure)
  deriving DecidableEq, Repr

namespace Failure

def message : Failure → Bytes
  | plain message => message
  | unknown => Bytes.ofAscii "<nil>"
  | endOfInput => Bytes.ofAscii "EOF"
  | unsupported => Bytes.ofAscii "jit: native execution is not supported on this platform"
  | invalidCode => Bytes.ofAscii "jit: invalid instruction buffer"
  | emulation fault => fault.message
  | allocation operation size cause =>
      Bytes.ofAscii "jit: " ++ operation ++ Bytes.ofAscii " of " ++ Text.decimal size ++
        Bytes.ofAscii " bytes failed: " ++ cause.message
  | context text cause => text ++ Bytes.ofAscii ": " ++ cause.message
  | reading line cause =>
      Bytes.ofAscii "reading line " ++ Text.decimalNat line ++ Bytes.ofAscii ": " ++ cause.message
  | program line _ cause =>
      Bytes.ofAscii "line " ++ Text.decimalNat line ++ Bytes.ofAscii ": " ++ cause.message

def cause? : Failure → Option Failure
  | allocation _ _ unknown => none
  | allocation _ _ cause => some cause
  | context _ cause => some cause
  | reading _ cause => some cause
  | program _ _ cause => some cause
  | _ => none

def chain : Failure → List Failure
  | allocation operation size cause => allocation operation size cause :: cause.chain
  | context text cause => context text cause :: cause.chain
  | reading line cause => reading line cause :: cause.chain
  | program line source cause => program line source cause :: cause.chain
  | f => [f]

def isAllocation : Failure → Bool
  | allocation .. => true
  | _ => false

/-- Whether the input has ended, however the news is wrapped. -/
def isEnd (f : Failure) : Bool :=
  f.chain.contains endOfInput

end Failure

end Accumulator
