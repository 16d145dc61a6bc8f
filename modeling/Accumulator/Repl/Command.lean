import Accumulator.Text.Blank
import Accumulator.Text.Lowercase
/-!
# Commands

In an interactive loop a line that starts with a colon is a command, named by its first word in any
case.
-/

namespace Accumulator

inductive Command where
  | help
  | quit
  | dump
  | stats
  | unknown (word : Bytes)
  deriving DecidableEq, Repr

namespace Command

def colon : UInt8 := Bytes.ofChar ':'

def isCommand (line : Bytes) : Bool :=
  line.head? == some colon

def words : List (Command × List String) :=
  [(help, [":help", ":h", ":?"]), (quit, [":quit", ":q", ":exit"]), (dump, [":dump", ":d"]),
   (stats, [":stats"])]

def ofLine (line : Bytes) : Command :=
  let word := Text.lower (Text.firstWord line)
  match words.find? fun entry => entry.2.any fun w => Bytes.ofAscii w == word with
  | some entry => entry.1
  | none => unknown word

def helpText : List String :=
  ["Available commands:",
   "  :help, :h, :?     Show this help message",
   "  :quit, :q, :exit  Exit the REPL",
   "  :dump, :d         Toggle machine code listing",
   "  :stats            Show executable region counters",
   "",
   "Each line is one program:",
   "  +  add 1        -  subtract 1",
   "  *  double       /  halve (toward zero)",
   "Other characters are ignored."]

end Command

end Accumulator
