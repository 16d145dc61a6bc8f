import Accumulator.Toml.Characters
/-!
# Dates and times

The four ways to write a moment: a date, a time of day, both, or both with the offset of a time zone.
A date has to exist, and a minute may have sixty seconds and one more.
-/

namespace Accumulator.Toml

inductive Moment where
  | date
  | time
  | dateTime
  | instant
  deriving DecidableEq, Repr

namespace Moment

def digits? (count : Nat) (input : Bytes) : Option (Nat × Bytes) :=
  let text := input.take count
  if text.length = count ∧ text.all isDigit then
    some (text.foldl (fun n b => n * 10 + (b - Bytes.ofChar '0').toNat) 0, input.drop count)
  else none

def upTo? (limit : Nat) (input : Bytes) : Option Bytes :=
  match digits? 2 input with
  | some (n, rest) => if n ≤ limit then some rest else none
  | none => none

def isLeapYear (year : Nat) : Bool :=
  year % 4 == 0 && (year % 100 != 0 || year % 400 == 0)

def daysIn (year month : Nat) : Nat :=
  match month with
  | 2 => if isLeapYear year then 29 else 28
  | 4 | 6 | 9 | 11 => 30
  | 1 | 3 | 5 | 7 | 8 | 10 | 12 => 31
  | _ => 0

def date? (input : Bytes) : Option Bytes := do
  let (year, rest) ← digits? 4 input
  let (month, rest) ← digits? 2 (← expect? '-' rest)
  let (day, rest) ← digits? 2 (← expect? '-' rest)
  if 1 ≤ day ∧ day ≤ daysIn year month then some rest else none

def fraction? (input : Bytes) : Option Bytes :=
  match expect? '.' input with
  | none => some input
  | some rest => if rest.head?.any isDigit then some (rest.dropWhile isDigit) else none

def time? (input : Bytes) : Option Bytes := do
  let rest ← upTo? 23 input
  let rest ← upTo? 59 (← expect? ':' rest)
  let rest ← upTo? 60 (← expect? ':' rest)
  fraction? rest

def separators : Bytes := Bytes.ofAscii "Tt "

def dateTime? (input : Bytes) : Option Bytes := do
  let rest ← date? input
  if rest.head?.any separators.contains then time? rest.tail else none

/-- What follows the offset of a time zone: a letter for none, or hours and minutes with a sign. -/
def offset? (input : Bytes) : Option Bytes :=
  if startsWith 'Z' input ∨ startsWith 'z' input then some input.tail
  else if startsWith '+' input ∨ startsWith '-' input then do
    let rest ← upTo? 23 input.tail
    upTo? 59 (← expect? ':' rest)
  else none

def ofText? (text : Bytes) : Option Moment :=
  if date? text = some [] then some date
  else if time? text = some [] then some time
  else
    match dateTime? text with
    | none => none
    | some [] => some dateTime
    | some rest => if offset? rest = some [] then some instant else none

end Moment

end Accumulator.Toml
