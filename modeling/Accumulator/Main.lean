import Accumulator.Cli.Run
/-!
# The program

Reads arguments, files and standard input, hands them to the command line, and writes what it gives.
-/

namespace Accumulator

def toByteArray (bytes : Bytes) : ByteArray :=
  ⟨bytes.toArray⟩

def writeTo (stream : IO.FS.Stream) (bytes : Bytes) : IO Unit := do
  stream.write (toByteArray bytes)
  stream.flush

/-- Reads an open file; what opens and cannot be read is a directory. -/
def readOpen (handle : IO.FS.Handle) : IO File := do
  try
    let content ← handle.readBinToEnd
    return .regular content.data.toList
  catch _ => return .directory

def openPath (path : Bytes) : IO (Except OpenFailure File) := do
  try
    let name := (String.fromUTF8? (toByteArray path)).getD ""
    let handle ← IO.FS.Handle.mk name .read
    return .ok (← readOpen handle)
  catch error =>
    match error with
    | .inappropriateType .. => return .error .notDirectory
    | _ => return .error .missing

def snapshot (arguments : List Bytes) : IO FileSystem := do
  let paths :=
    match Cli.Options.parse arguments with
    | .ok o => (if o.config = [] then Config.defaultPath else o.config) :: o.paths
    | .error _ => []
  let mut found : List (Bytes × Except OpenFailure File) := []
  for path in paths do
    found := (path, ← openPath path) :: found
  let files := found
  return fun path => (files.lookup path).getD (.error .missing)

def settle (level : Log.Level) (r : Repl) : IO Repl := do
  writeTo (← IO.getStdout) r.console.output
  let entries := Log.atLevel level (Cli.Batch.evaluationLog r)
  writeTo (← IO.getStderr) (entries.flatMap Log.Entry.line)
  return { r with evaluations := [], console.writes := [] }

partial def nextRead (input : IO.FS.Stream) (pending : Read.Pending) : IO Read := do
  let chunk ← input.read 1
  if chunk.isEmpty then return pending.cut .endOfInput
  match Read.takeItem (pending, []) (.data chunk.data.toList) with
  | (_, read :: _) => return read
  | (pending, []) => nextRead input pending

partial def converse (level : Log.Level) (input : IO.FS.Stream) (failedReads : Nat) (r : Repl) :
    IO Unit := do
  let r ← settle level r.ask
  let read ← nextRead input {}
  let t := r.onRead failedReads read
  let r ← settle level t.repl
  match t.next with
  | .goOn failedReads => converse level input failedReads r
  | _ => return

end Accumulator

open Accumulator in
def main (arguments : List String) : IO UInt32 := do
  let arguments := arguments.map fun a => a.toUTF8.data.toList
  let world : Cli.World := { files := ← snapshot arguments, stdin := [], stdout := .unlimited }
  match Cli.prepare arguments world.files with
  | .ok job =>
      if job.options.eval = [] ∧ job.options.paths = [] then
        let r := Cli.loopOver job.config world true []
        converse job.level (← IO.getStdin) 0 (← settle job.level r.greet)
        return 0
  | .error _ => pure ()
  let result := Cli.run arguments world
  writeTo (← IO.getStdout) result.stdout.output
  writeTo (← IO.getStderr) (result.stderr ++ result.log.flatMap Log.Entry.line)
  match result.ending with
  | .exit code => return code.toUInt32
  | .crash message =>
      writeTo (← IO.getStderr) (Bytes.line (Bytes.ofAscii "panic: " ++ message.getD []))
      return 2
