import Accumulator.Failure
/-!
# Consoles

Output goes to a sink in separate writes, each of which is taken whole or refused whole.  A console
keeps what was tried and what became of it.
-/

namespace Accumulator

/-- Decides on a write from the number of writes before it, the bytes taken so far and its text. -/
abbrev Sink := Nat → Nat → Bytes → Option Failure

namespace Sink

def unlimited : Sink :=
  fun _ _ _ => none

def limited (limit : Nat) : Sink :=
  fun _ taken text =>
    if limit < taken + text.length then some (.plain (Bytes.ofAscii "write refused")) else none

def full : Sink :=
  fun _ _ _ => some (.plain (Bytes.ofAscii "no space left on device"))

end Sink

structure Write where
  text : Bytes
  accepted : Bool
  deriving DecidableEq, Repr

structure Console where
  sink : Sink
  attempts : Nat := 0
  taken : Nat := 0
  /-- Newest first. -/
  writes : List Write := []

namespace Console

def write (c : Console) (text : Bytes) : Option Failure × Console :=
  match c.sink c.attempts c.taken text with
  | some f => (some f, { c with attempts := c.attempts + 1, writes := ⟨text, false⟩ :: c.writes })
  | none =>
      (none,
        { c with
          attempts := c.attempts + 1
          taken := c.taken + text.length
          writes := ⟨text, true⟩ :: c.writes })

def put (c : Console) (text : Bytes) : Console :=
  (c.write text).2

def putLines (c : Console) (lines : List String) : Console :=
  lines.foldl (fun c text => c.put (Bytes.line (Bytes.ofAscii text))) c

def output (c : Console) : Bytes :=
  c.writes.reverse.flatMap fun w => if w.accepted then w.text else []

end Console

end Accumulator
