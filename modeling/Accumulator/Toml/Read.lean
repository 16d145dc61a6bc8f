import Accumulator.Toml.Strings
import Accumulator.Toml.Tables
/-!
# Reading documents

Statements stand on lines of their own, with blanks and a comment around them.  Numbers and dates are
recognised by their characters; numbers are not looked into.  Each reader gives what it has read
together with the rest of the input.
-/

namespace Accumulator.Toml

/-- A comment up to the end of its line; `skip` bytes belong to a character that has been read. -/
def skipComment (skip : Nat) : Bytes → Option Bytes
  | [] => some []
  | b :: rest =>
      match skip with
      | skip + 1 => skipComment skip rest
      | 0 =>
          if b = lineFeed then some (b :: rest)
          else if b = carriageReturn then
            if rest.head? = some lineFeed then some rest else none
          else
            match textChar? (b :: rest) with
            | some more => skipComment more.length rest
            | none => none

def skipToLineEnd (input : Bytes) : Option Bytes :=
  let rest := skipSpaces input
  if startsWith '#' rest then skipComment 0 rest else some rest

/-! ## Keys -/

def isBareKeyByte (b : UInt8) : Bool :=
  isDigit b || between 'A' 'Z' b || between 'a' 'z' b || b == Bytes.ofChar '-' || b == Bytes.ofChar '_'

def keyPart? (input : Bytes) : Option (Bytes × Bytes) :=
  if startsWith '"' input then basicString 0 [] input.tail
  else if startsWith '\'' input then literalString 0 [] input.tail
  else
    let word := input.takeWhile isBareKeyByte
    if word = [] then none else some (word, input.dropWhile isBareKeyByte)

/-- The parts of a key after its first one, which dots introduce; `fuel` bounds their number. -/
def keyParts? : Nat → Bytes → Option (List Bytes × Bytes)
  | 0, _ => none
  | fuel + 1, input =>
      match expect? '.' (skipSpaces input) with
      | none => some ([], skipSpaces input)
      | some rest => do
          let (part, rest) ← keyPart? (skipSpaces rest)
          let (parts, rest) ← keyParts? fuel rest
          some (part :: parts, rest)

def key? (fuel : Nat) (input : Bytes) : Option (Key × Bytes) := do
  let (first, rest) ← keyPart? input
  let (more, rest) ← keyParts? fuel rest
  some (⟨first, more⟩, rest)

/-! ## Numbers and dates -/

def baseDigit? (letter : UInt8) : Option (UInt8 → Bool) :=
  let underscore (b : UInt8) := b == Bytes.ofChar '_'
  if letter = Bytes.ofChar 'x' then some fun b => (hexValue? b).isSome || underscore b
  else if letter = Bytes.ofChar 'o' then some fun b => between '0' '7' b || underscore b
  else if letter = Bytes.ofChar 'b' then some fun b => between '0' '1' b || underscore b
  else none

def isNumberByte (b : UInt8) : Bool :=
  isDigit b || (Bytes.ofAscii "+-_.eE").contains b

/-- What follows a number without a base.  It may end in the word for infinity or for no number. -/
def plainNumber? (input : Bytes) : Option Bytes :=
  let rest := input.dropWhile isNumberByte
  if startsWith 'i' rest then word? "inf" rest
  else if startsWith 'n' rest then word? "nan" rest
  else if input.head?.any isNumberByte then some rest
  else none

/-- What follows a number.  After a leading zero comes a fraction, an exponent, the letter of a base,
or the end of the number. -/
def number? : Bytes → Option Bytes
  | zero :: letter :: third :: rest =>
      if zero ≠ Bytes.ofChar '0' ∨ letter ∈ Bytes.ofAscii ".eE" then
        plainNumber? (zero :: letter :: third :: rest)
      else
        match baseDigit? letter with
        | some isBaseDigit => some ((third :: rest).dropWhile isBaseDigit)
        | none => some (letter :: third :: rest)
  | input => plainNumber? input

def isDateByte (b : UInt8) : Bool :=
  isDigit b || (Bytes.ofAscii "-+:.TtZz").contains b

/-- The text of a date or a time.  One space may stand in it where a digit follows; that digit and the
byte after it, which `skip` counts, belong to the text whatever they are. -/
def dateText (spaceSeen : Bool) (skip : Nat) (found : Bytes) : Bytes → Bytes × Bytes
  | [] => (found.reverse, [])
  | b :: rest =>
      match skip with
      | skip + 1 => dateText spaceSeen skip (b :: found) rest
      | 0 =>
          if isDateByte b then dateText spaceSeen 0 (b :: found) rest
          else if b = Bytes.space ∧ spaceSeen = false ∧ rest.head?.any isDigit then
            dateText true 2 (b :: found) rest
          else (found.reverse, b :: rest)

def isDate (input : Bytes) : Bool :=
  let digits := (input.takeWhile isDigit).length
  let rest := input.drop digits
  (digits == 2 && startsWith ':' rest) || (digits == 4 && startsWith '-' rest)

/-- A date, a time or a number.  A date that does not exist is a value like any other. -/
def numberOrDate? (input : Bytes) : Option (Value × Bytes) :=
  if isDate input then
    let (text, rest) := dateText false 0 [] input
    some (((Moment.ofText? text).map Value.moment).getD (.other false), rest)
  else (number? input).map fun rest => (.other false, rest)

/-! ## Values -/

/-- Blanks, comments and line ends between the elements of an array.  `inComment` tells whether a
comment has begun on this line, and `skip` bytes belong to a character that has been read. -/
def skipGap (inComment : Bool) (skip : Nat) : Bytes → Option Bytes
  | [] => some []
  | b :: rest =>
      match skip with
      | skip + 1 => skipGap inComment skip rest
      | 0 =>
          if b = lineFeed then skipGap false 0 rest
          else if b = carriageReturn then
            if rest.head? = some lineFeed then skipGap inComment 0 rest else none
          else if inComment ∨ b = Bytes.ofChar '#' then
            match textChar? (b :: rest) with
            | some more => skipGap true more.length rest
            | none => none
          else if isSpace b then skipGap false 0 rest
          else some (b :: rest)

def simpleValue? (input : Bytes) : Option (Value × Bytes) :=
  if startsWith '"' input ∨ startsWith '\'' input then
    (string? input).map fun (text, rest) => (.string text, rest)
  else if startsWith 't' input then (word? "true" input).map fun rest => (.bool true, rest)
  else if startsWith 'f' input then (word? "false" input).map fun rest => (.bool false, rest)
  else numberOrDate? input

mutual

/-- A value; `fuel` bounds the nesting and the number of elements. -/
def value? : Nat → Bytes → Option (Value × Bytes)
  | 0, _ => none
  | fuel + 1, input =>
      if startsWith '[' input then elements? fuel true false input.tail
      else if startsWith '\x7b' input then members? fuel true false [] input.tail
      else simpleValue? input

/-- The elements of an array from here on; `clash` tells of those before. -/
def elements? : Nat → (first : Bool) → (clash : Bool) → Bytes → Option (Value × Bytes)
  | 0, _, _, _ => none
  | fuel + 1, first, clash, input => do
      let rest ← skipGap false 0 input
      if startsWith ']' rest then some (.other clash, rest.tail)
      else
        let rest ← if first then some rest else (expect? ',' rest).bind (skipGap false 0)
        if first = false ∧ startsWith ']' rest then some (.other clash, rest.tail)
        else
          let (value, rest) ← value? fuel rest
          elements? fuel false (clash || value.clashes) rest

/-- The members of an inline table from here on; `keys` are those before, newest first. -/
def members? : Nat → (first : Bool) → (clash : Bool) → List Key → Bytes → Option (Value × Bytes)
  | 0, _, _, _, _ => none
  | fuel + 1, first, clash, keys, input => do
      let rest := skipSpaces input
      if startsWith '\x7d' rest then
        some (.other (clash || !Tables.fresh keys.reverse), rest.tail)
      else
        let rest ← if first then some rest else (expect? ',' rest).map skipSpaces
        let (key, rest) ← key? fuel rest
        let rest ← expect? '=' rest
        let (value, rest) ← value? fuel (skipSpaces rest)
        members? fuel false (clash || value.clashes) (key :: keys) rest

end

/-! ## Statements -/

def assignment? (fuel : Nat) (input : Bytes) : Option (Statement × Bytes) := do
  let (key, rest) ← key? fuel input
  let rest ← expect? '=' rest
  let (value, rest) ← value? fuel (skipSpaces rest)
  some (.assign key value, rest)

def header? (fuel : Nat) (input : Bytes) : Option (Statement × Bytes) := do
  let inner ← expect? '[' input
  match expect? '[' inner with
  | none =>
      let (key, rest) ← key? fuel (skipSpaces inner)
      let rest ← expect? ']' rest
      some (.table key, rest)
  | some inner =>
      let (key, rest) ← key? fuel (skipSpaces inner)
      let rest ← (expect? ']' rest).bind (expect? ']')
      some (.arrayTable key, rest)

def line? (fuel : Nat) (input : Bytes) : Option (Option Statement × Bytes) := do
  let start ← skipToLineEnd input
  if start.head?.all isLineEnd then some (none, start)
  else
    let (statement, rest) ←
      if startsWith '[' start then header? fuel start else assignment? fuel start
    let rest ← skipToLineEnd rest
    some (some statement, rest)

/-- The lines that are left; `found` is newest first.  `fuel` bounds the number of lines as well as
what stands on each. -/
def lines (fuel : Nat) : Nat → List Statement → Bytes → Document
  | 0, found, _ => ⟨found.reverse, false⟩
  | more + 1, found, input =>
      match line? fuel input with
      | none => ⟨found.reverse, false⟩
      | some (statement, rest) =>
          let found := statement.toList ++ found
          if rest = [] then ⟨found.reverse, true⟩
          else
            match newline? rest with
            | none => ⟨found.reverse, false⟩
            | some rest => lines fuel more found rest

def Document.ofText (text : Bytes) : Document :=
  let fuel := 2 * text.length + 2
  lines fuel fuel [] text

end Accumulator.Toml
