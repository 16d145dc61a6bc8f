import Accumulator.Bytes
import Accumulator.Text.Quoted
/-!
# Command-line flags

A flag has one hyphen or two before its name.  Switches may be given a truth value after an equals
sign; flags with a text take it after an equals sign or from the next argument.  Flags end at the
first argument that is none.
-/

namespace Accumulator.Cli

inductive Flag where
  | config
  | dump
  | eval
  | emulate
  | json
  | logLevel
  | wxorx
  deriving DecidableEq, Repr

namespace Flag

def all : List Flag :=
  [config, dump, eval, emulate, json, logLevel, wxorx]

def name : Flag → String
  | config => "config"
  | dump => "dump"
  | eval => "e"
  | emulate => "emulate"
  | json => "json"
  | logLevel => "log-level"
  | wxorx => "wxorx"

def description : Flag → String
  | config => "Path to config file (default ./accjit.toml if present)"
  | dump => "Print the machine code listing before running"
  | eval => "Run a single program and exit"
  | emulate => "Interpret machine code instead of running it natively"
  | json => "Print results as JSON"
  | logLevel => "Log level: debug, info, warn, error"
  | wxorx => "Map code writable, then executable (never both)"

def takesText : Flag → Bool
  | config | eval | logLevel => true
  | _ => false

def ofName? (name : Bytes) : Option Flag :=
  all.find? fun f => Bytes.ofAscii f.name == name

end Flag

/-- What the flags of a command line say.  A switch that is not given leaves a setting alone. -/
structure Options where
  config : Bytes := []
  eval : Bytes := []
  json : Option Bool := none
  dump : Option Bool := none
  emulate : Option Bool := none
  wxorx : Option Bool := none
  logLevel : Option Bytes := none
  paths : List Bytes := []
  deriving DecidableEq, Repr

inductive FlagFailure where
  | help
  | badSyntax (argument : Bytes)
  | undefined (name : Bytes)
  | needsArgument (name : Bytes)
  | badTruthValue (value name : Bytes)
  deriving DecidableEq, Repr

namespace FlagFailure

/-- The line that explains a failure; asking for help needs none. -/
def message? : FlagFailure → Option Bytes
  | help => none
  | badSyntax argument => some (Bytes.ofAscii "bad flag syntax: " ++ argument)
  | undefined name => some (Bytes.ofAscii "flag provided but not defined: -" ++ name)
  | needsArgument name => some (Bytes.ofAscii "flag needs an argument: -" ++ name)
  | badTruthValue value name =>
      some (Bytes.ofAscii "invalid boolean value " ++ Text.quote value ++ Bytes.ofAscii " for -" ++
        name ++ Bytes.ofAscii ": parse error")

end FlagFailure

def truthWords : List (String × Bool) :=
  [("1", true), ("0", false), ("t", true), ("f", false), ("T", true), ("F", false),
   ("true", true), ("false", false), ("TRUE", true), ("FALSE", false), ("True", true),
   ("False", false)]

def truthValue? (text : Bytes) : Option Bool :=
  (truthWords.find? fun word => Bytes.ofAscii word.1 == text).map (·.2)

namespace Options

def setText (o : Options) (value : Bytes) : Flag → Options
  | .config => { o with config := value }
  | .eval => { o with eval := value }
  | .logLevel => { o with logLevel := some value }
  | _ => o

def setSwitch (o : Options) (value : Bool) : Flag → Options
  | .json => { o with json := some value }
  | .dump => { o with dump := some value }
  | .emulate => { o with emulate := some value }
  | .wxorx => { o with wxorx := some value }
  | _ => o

def hyphen : UInt8 := Bytes.ofChar '-'

def equals : UInt8 := Bytes.ofChar '='

inductive Argument where
  /-- No flag: it and all that follows are paths. -/
  | path
  | finished
  | bad
  | flag (name : Bytes) (value : Option Bytes)
  deriving DecidableEq, Repr

/-- Splits a flag at its first equals sign, which cannot be its first character. -/
def splitValue (text : Bytes) : Bytes × Option Bytes :=
  let name := text.take 1 ++ (text.drop 1).takeWhile (· != equals)
  let rest := text.drop name.length
  (name, rest.head?.map fun _ => rest.drop 1)

def classify (argument : Bytes) : Argument :=
  if argument.length < 2 ∨ argument.head? ≠ some hyphen then .path
  else if argument = [hyphen, hyphen] then .finished
  else
    let text := argument.drop (if argument[1]? = some hyphen then 2 else 1)
    if text.head? = some hyphen ∨ text.head? = some equals then .bad
    else
      let (name, value) := splitValue text
      .flag name value

def parseFrom (o : Options) : List Bytes → Except FlagFailure Options
  | [] => .ok o
  | argument :: rest =>
      match classify argument with
      | .path => .ok { o with paths := argument :: rest }
      | .finished => .ok { o with paths := rest }
      | .bad => .error (.badSyntax argument)
      | .flag name value =>
          match Flag.ofName? name with
          | none =>
              if name = Bytes.ofAscii "help" ∨ name = Bytes.ofAscii "h" then .error .help
              else .error (.undefined name)
          | some f =>
              if f.takesText then
                match value, rest with
                | some text, rest => (o.setText text f).parseFrom rest
                | none, text :: rest => (o.setText text f).parseFrom rest
                | none, [] => .error (.needsArgument name)
              else
                match value with
                | none => (o.setSwitch true f).parseFrom rest
                | some text =>
                    match truthValue? text with
                    | some b => (o.setSwitch b f).parseFrom rest
                    | none => .error (.badTruthValue text name)

def parse (arguments : List Bytes) : Except FlagFailure Options :=
  parseFrom {} arguments

end Options

def usage : Bytes :=
  let head :=
    ["accjit - accumulator language JIT v0.1.0", "", "Usage:",
     "  accjit [options]              start the interactive loop",
     "  accjit [options] -e <program> run one program",
     "  accjit [options] <file>...    run each line of each file", "", "Options:"]
  let option (f : Flag) :=
    ["  -" ++ f.name ++ (if f.takesText then " string" else ""), "    \t" ++ f.description]
  (head ++ Flag.all.flatMap option).flatMap fun text => Bytes.line (Bytes.ofAscii text)

end Accumulator.Cli
