import Accumulator.Executor.Execute
import Accumulator.Program
/-!
# Engines

An engine runs programs in one of two ways: in executable memory, or on the emulated machine.
-/

namespace Accumulator

inductive Mode where
  | native
  | emulate
  deriving DecidableEq, Repr

namespace Mode

def name : Mode → Bytes
  | native => Bytes.ofAscii "native"
  | emulate => Bytes.ofAscii "emulate"

/-- Every name but that of emulation means native execution. -/
def ofName (name : Bytes) : Mode :=
  if name = emulate.name then emulate else native

end Mode

structure Engine where
  mode : Mode
  executor : Executor

namespace Engine

def on (mode : Mode) (host : Host) : Engine :=
  ⟨mode, { host }⟩

def run (e : Engine) (code : Bytes) : Call × Engine :=
  match e.mode with
  | .emulate =>
      match Machine.emulate code with
      | .ok value => ({ verdict := .value value }, e)
      | .error fault => ({ verdict := .failed (.emulation fault) }, e)
  | .native =>
      let (call, executor) := e.executor.execute code
      (call, { e with executor })

def compileAndRun (e : Engine) (source : Bytes) : Call × Engine :=
  e.run (Program.compile source).code

def counters (e : Engine) : Counters :=
  e.executor.counters

end Engine

end Accumulator
