import Accumulator.Files.Basic
import Accumulator.Repl.Report
import Accumulator.Text.Lowercase
import Accumulator.Text.Quoted
import Accumulator.Toml.Read
/-!
# Settings

Settings have defaults, which a file may override.  Keys are matched in any case; keys and tables that
are no setting are passed over.  Statements take effect one after the other, so that of several faults
the first one counts.
-/

namespace Accumulator

structure Config where
  prompt : Bytes := Bytes.ofAscii "jit> "
  logLevel : Bytes := Bytes.ofAscii "warn"
  output : Bytes := Format.text.name
  writeXorExecute : Bool := false
  emulate : Bool := false
  showCode : Bool := false
  deriving DecidableEq, Repr

inductive SettingKind where
  | text
  | switch
  deriving DecidableEq, Repr

def SettingKind.name : SettingKind → Bytes
  | text => Bytes.ofAscii "string"
  | switch => Bytes.ofAscii "bool"

def Toml.Moment.name : Toml.Moment → Bytes
  | date => Bytes.ofAscii "toml.LocalDate"
  | time => Bytes.ofAscii "toml.LocalTime"
  | dateTime => Bytes.ofAscii "toml.LocalDateTime"
  | instant => Bytes.ofAscii "time.Time"

/-- The statements on which reading breaks down: a setting is given a date or time, or a table is
opened inside a setting. -/
inductive Breakdown where
  | moment (m : Toml.Moment) (kind : SettingKind)
  | innerTable (kind : SettingKind)
  deriving DecidableEq, Repr

def Breakdown.message : Breakdown → Bytes
  | moment m kind =>
      Bytes.ofAscii "reflect.Set: value of type " ++ m.name ++
        Bytes.ofAscii " is not assignable to type " ++ kind.name
  | innerTable kind => Bytes.ofAscii "unhandled part: " ++ kind.name

inductive ConfigFailure where
  | missing (message : Bytes)
  | unreadable (message : Bytes)
  | malformed
  | brokenDown (b : Breakdown)
  | unknownOutput (output : Bytes)
  deriving DecidableEq, Repr

namespace ConfigFailure

def message : ConfigFailure → Bytes
  | missing message => Bytes.ofAscii "failed to read config file: " ++ message
  | unreadable message => Bytes.ofAscii "failed to read config file: " ++ message
  | malformed => Bytes.ofAscii "failed to parse config file: <toml>"
  | brokenDown b => b.message
  | unknownOutput output =>
      Bytes.ofAscii "invalid output format " ++ Text.quote output ++ Bytes.ofAscii " (want " ++
        Text.quote Format.text.name ++ Bytes.ofAscii " or " ++ Text.quote Format.json.name ++
        Bytes.ofAscii ")"

end ConfigFailure

inductive Setting where
  | prompt
  | logLevel
  | output
  | writeXorExecute
  | emulate
  | showCode
  deriving DecidableEq, Repr

namespace Setting

def all : List Setting :=
  [prompt, logLevel, output, writeXorExecute, emulate, showCode]

def name : Setting → Bytes
  | prompt => Bytes.ofAscii "prompt"
  | logLevel => Bytes.ofAscii "log_level"
  | output => Bytes.ofAscii "output"
  | writeXorExecute => Bytes.ofAscii "write_xor_execute"
  | emulate => Bytes.ofAscii "emulate"
  | showCode => Bytes.ofAscii "show_code"

def kind : Setting → SettingKind
  | prompt | logLevel | output => .text
  | writeXorExecute | emulate | showCode => .switch

def ofKey? (key : Bytes) : Option Setting :=
  let lowered := Text.lower key
  all.find? fun s => s.name == lowered

end Setting

namespace Config

def set (c : Config) (s : Setting) (value : Toml.Value) : Except ConfigFailure Config :=
  match s, value with
  | .prompt, .string text => .ok { c with prompt := text }
  | .logLevel, .string text => .ok { c with logLevel := text }
  | .output, .string text => .ok { c with output := text }
  | .writeXorExecute, .bool b => .ok { c with writeXorExecute := b }
  | .emulate, .bool b => .ok { c with emulate := b }
  | .showCode, .bool b => .ok { c with showCode := b }
  | s, .moment m => .error (.brokenDown (.moment m s.kind))
  | _, _ => .error .malformed

/-- The part of a document that a statement stands in: before all headers, in a table that is no
setting, or in one that has the name of a setting. -/
inductive Section where
  | top
  | unknown
  | setting
  deriving DecidableEq, Repr

structure Reading where
  config : Config := {}
  tables : Toml.Tables := {}
  part : Section := .top
  deriving DecidableEq, Repr

namespace Reading

/-- One assignment.  In a table that is no setting nothing is looked at. -/
def assign (r : Reading) (key : Toml.Key) (value : Toml.Value) : Except ConfigFailure Reading :=
  if r.part = .unknown then .ok r
  else
    match r.tables.assign key with
    | none => .error .malformed
    | some tables =>
        if value.clashes ∨ r.part = .setting then .error .malformed
        else
          match Setting.ofKey? key.first with
          | none => .ok { r with tables }
          | some s =>
              if key.more ≠ [] then .error .malformed
              else
                match r.config.set s value with
                | .error f => .error f
                | .ok config => .ok { r with config, tables }

/-- The header of a table.  No setting is a table, but an empty table of that name passes. -/
def openTable (r : Reading) (key : Toml.Key) : Except ConfigFailure Reading :=
  match r.tables.openTable key, Setting.ofKey? key.first with
  | none, _ => .error .malformed
  | some tables, none => .ok { r with tables, part := .unknown }
  | some tables, some s =>
      if key.more = [] then .ok { r with tables, part := .setting }
      else .error (.brokenDown (.innerTable s.kind))

def openElement (r : Reading) (key : Toml.Key) : Except ConfigFailure Reading :=
  match r.tables.openElement key, Setting.ofKey? key.first with
  | none, _ => .error .malformed
  | some tables, none => .ok { r with tables, part := .unknown }
  | some _, some s =>
      if key.more = [] then .error .malformed else .error (.brokenDown (.innerTable s.kind))

def step (r : Reading) : Toml.Statement → Except ConfigFailure Reading
  | .assign key value => r.assign key value
  | .table key => r.openTable key
  | .arrayTable key => r.openElement key

end Reading

/-- The settings of a document; those that it does not name keep their defaults. -/
def ofDocument (document : Toml.Document) : Except ConfigFailure Config :=
  match document.statements.foldlM Reading.step ({} : Reading) with
  | .error f => .error f
  | .ok reading => if document.sound then .ok reading.config else .error .malformed

def validate (c : Config) : Except ConfigFailure Config :=
  match Format.ofName? c.output with
  | some _ => .ok c
  | none => .error (.unknownOutput c.output)

def content (files : FileSystem) (path : Bytes) : Except ConfigFailure Bytes :=
  match files path with
  | .ok (.regular content) => .ok content
  | .ok .directory => .error (.unreadable (File.directoryMessage path))
  | .error .missing => .error (.missing (OpenFailure.missing.message path))
  | .error f => .error (.unreadable (f.message path))

def load (files : FileSystem) (path : Bytes) : Except ConfigFailure Config := do
  let text ← content files path
  let config ← ofDocument (Toml.Document.ofText text)
  config.validate

def loadOptional (files : FileSystem) (path : Bytes) : Except ConfigFailure Config :=
  match load files path with
  | .error (.missing _) => .ok {}
  | result => result

def defaultPath : Bytes :=
  Bytes.ofAscii "accjit.toml"

end Config

end Accumulator
