import Accumulator.Toml.Characters
/-!
# Strings of a document

The four kinds of strings: with escapes or literal, on one line or on several.  Each function starts
after the opening quotes and gives the text and what follows the closing quotes.
-/

namespace Accumulator.Toml

def quotationMark : UInt8 := Bytes.ofChar '"'

def apostrophe : UInt8 := Bytes.ofChar '\''

def backslash : UInt8 := Bytes.ofChar '\\'

def escapes : List (Char × UInt8) :=
  [('"', 34), ('\\', 92), ('b', 8), ('t', 9), ('n', 10), ('f', 12), ('r', 13), ('e', 27)]

def escape? (letter : UInt8) : Option UInt8 :=
  (escapes.find? fun e => Bytes.ofChar e.1 == letter).map (·.2)

def hexValue? (b : UInt8) : Option Nat :=
  if isDigit b then some (b - Bytes.ofChar '0').toNat
  else if between 'a' 'f' b then some (b - Bytes.ofChar 'a' + 10).toNat
  else if between 'A' 'F' b then some (b - Bytes.ofChar 'A' + 10).toNat
  else none

def scalar? (digits : Bytes) : Option Bytes := do
  let c ← digits.foldlM (fun n d => (hexValue? d).map (n * 16 + ·)) 0
  if Text.Utf8.IsScalar c then some (Text.Utf8.encode c) else none

def escapeDigits? (letter : UInt8) : Option Nat :=
  if letter = Bytes.ofChar 'u' then some 4
  else if letter = Bytes.ofChar 'U' then some 8
  else none

def escaped? : Bytes → Option (Bytes × Nat)
  | [] => none
  | letter :: rest =>
      match escapeDigits? letter with
      | some n =>
          let digits := rest.take n
          if digits.length < n then none else (scalar? digits).map fun text => (text, n + 1)
      | none => (escape? letter).map fun b => ([b], 1)

/-- A string with escapes on one line.  `skip` bytes belong to an escape or a character that has been
read, and `found` is newest first. -/
def basicString (skip : Nat) (found : Bytes) : Bytes → Option (Bytes × Bytes)
  | [] => none
  | b :: rest =>
      match skip with
      | skip + 1 => basicString skip found rest
      | 0 =>
          if b = quotationMark then some (found.reverse, rest)
          else if isLineEnd b then none
          else if b = backslash then
            match escaped? rest with
            | some (text, length) => basicString length (text.reverse ++ found) rest
            | none => none
          else
            match textChar? (b :: rest) with
            | some more => basicString more.length (more.reverse ++ b :: found) rest
            | none => none

/-- A literal string on one line; `skip` bytes belong to a character that has been read. -/
def literalString (skip : Nat) (found : Bytes) : Bytes → Option (Bytes × Bytes)
  | [] => none
  | b :: rest =>
      match skip with
      | skip + 1 => literalString skip found rest
      | 0 =>
          if b = apostrophe then some (found.reverse, rest)
          else if isLineEnd b then none
          else
            match textChar? (b :: rest) with
            | some more => literalString more.length (more.reverse ++ b :: found) rest
            | none => none

/-- Three quotes end a string on several lines; up to two more before them belong to its text. -/
def closing? (quote : UInt8) (input : Bytes) : Option (Option (Bytes × Bytes)) :=
  let run := (input.takeWhile (· == quote)).length
  if run < 3 then none
  else if 5 < run then some none
  else some (some (List.replicate (run - 3) quote, input.drop run))

def endsLine (input : Bytes) : Bool :=
  (newline? (skipSpaces input)).isSome

/-- A string with escapes on several lines.  While `trimming`, blanks and line ends are dropped, as
they are after a backslash that ends its line. -/
def basicText (trimming : Bool) (skip : Nat) (found : Bytes) : Bytes → Option (Bytes × Bytes)
  | [] => none
  | b :: rest =>
      match skip with
      | skip + 1 => basicText false skip found rest
      | 0 =>
          if b = carriageReturn ∧ rest.head? ≠ some lineFeed then none
          else if trimming ∧ (isSpace b ∨ isLineEnd b) then basicText true 0 found rest
          else if b = backslash then
            if endsLine rest then basicText true 0 found rest
            else
              match escaped? rest with
              | some (text, length) => basicText false length (text.reverse ++ found) rest
              | none => none
          else
            match closing? quotationMark (b :: rest) with
            | some (some (quotes, after)) => some (found.reverse ++ quotes, after)
            | some none => none
            | none =>
                match textChar? (b :: rest) with
                | some more => basicText false more.length (more.reverse ++ b :: found) rest
                | none => none

def literalText (skip : Nat) (found : Bytes) : Bytes → Option (Bytes × Bytes)
  | [] => none
  | b :: rest =>
      match skip with
      | skip + 1 => literalText skip found rest
      | 0 =>
          if b = carriageReturn ∧ rest.head? ≠ some lineFeed then none
          else
            match closing? apostrophe (b :: rest) with
            | some (some (quotes, after)) => some (found.reverse ++ quotes, after)
            | some none => none
            | none =>
                match textChar? (b :: rest) with
                | some more => literalText more.length (more.reverse ++ b :: found) rest
                | none => none

/-- A line end right after the opening quotes of a string on several lines does not count. -/
def skipFirstLineEnd (input : Bytes) : Bytes :=
  (newline? input).getD input

def string? (input : Bytes) : Option (Bytes × Bytes) :=
  if (List.replicate 3 quotationMark).isPrefixOf input then
    basicText false 0 [] (skipFirstLineEnd (input.drop 3))
  else if (List.replicate 3 apostrophe).isPrefixOf input then
    literalText 0 [] (skipFirstLineEnd (input.drop 3))
  else if input.head? = some quotationMark then basicString 0 [] (input.drop 1)
  else if input.head? = some apostrophe then literalString 0 [] (input.drop 1)
  else none

end Accumulator.Toml
