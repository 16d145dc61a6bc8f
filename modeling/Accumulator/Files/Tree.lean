import Accumulator.Files.Basic
/-!
# File trees

A directory held in memory, and the walk along a path in it.  What lies above the directory is a
directory too, in which nothing is found.
-/

namespace Accumulator

/-- The files and directories below a directory, by the names that lead to them.  The directories on
the way to an entry need no entry of their own. -/
abbrev FileTree := List (List Bytes × File)

/-- Where a walk stands: above the directory, or at the place that some names lead to. -/
inductive Place where
  | above
  | below (names : List Bytes)
  deriving DecidableEq, Repr

namespace FileTree

def slash : UInt8 := Bytes.ofChar '/'

def here : Bytes := Bytes.ofAscii "."

def up : Bytes := Bytes.ofAscii ".."

def names (path : Bytes) : List Bytes :=
  (path.splitOn slash).filter (· != [])

def find? (tree : FileTree) (names : List Bytes) : Option File :=
  match tree.lookup names with
  | some file => some file
  | none =>
      if names = [] ∨ tree.any (fun entry => names.isPrefixOf entry.1) then some .directory else none

def at? (tree : FileTree) : Place → Option File
  | .above => some .directory
  | .below names => tree.find? names

def nameLimit : Nat := 255

def pathLimit : Nat := 4096

def parent : Place → Place
  | .above => .above
  | .below names => if names = [] then .above else .below names.dropLast

def child? (tree : FileTree) (name : Bytes) : Place → Option Place
  | .above => none
  | .below names =>
      let names := names ++ [name]
      if (tree.find? names).isSome then some (.below names) else none

def step (tree : FileTree) (place : Place) (name : Bytes) : Except OpenFailure Place :=
  if tree.at? place ≠ some .directory then .error .notDirectory
  else if name = here then .ok place
  else if name = up then .ok (parent place)
  else if nameLimit < name.length then .error .nameTooLong
  else
    match tree.child? name place with
    | some place => .ok place
    | none => .error .missing

/-- Opens a path.  One that ends in a slash has to lead to a directory. -/
def open? (tree : FileTree) (path : Bytes) : Except OpenFailure File :=
  if path.contains 0 then .error .invalidName
  else if pathLimit ≤ path.length then .error .nameTooLong
  else if path = [] then .error .missing
  else do
    let start := if path.head? = some slash then Place.above else .below []
    let place ← (names path).foldlM tree.step start
    match tree.at? place with
    | none => .error .missing
    | some .directory => .ok .directory
    | some file => if path.getLast? = some slash then .error .notDirectory else .ok file

end FileTree

end Accumulator
