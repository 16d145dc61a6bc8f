import Accumulator.Toml.Basic
/-!
# Tables of a document

Which keys and tables a document has defined so far, and whether one more definition fits.  No key is
defined twice, a table is opened by one header at most, and a table that dotted keys have built is
closed as soon as the next header comes.
-/

namespace Accumulator.Toml

inductive PathKind where
  | table
  | value
  | arrayTable
  deriving DecidableEq, Repr

/-- What is known of a path.  A `closed` table takes no more keys by dots and no header of its own;
a `dotted` one was built by keys of the table that is open now. -/
structure Mark where
  kind : PathKind
  closed : Bool
  dotted : Bool
  deriving DecidableEq, Repr

structure Tables where
  marks : List (List Bytes × Mark) := []
  opened : List Bytes := []
  deriving DecidableEq, Repr

namespace Tables

def find? (t : Tables) (path : List Bytes) : Option Mark :=
  t.marks.lookup path

def set (t : Tables) (path : List Bytes) (mark : Mark) : Tables :=
  { t with marks := (path, mark) :: t.marks.filter fun item => item.1 != path }

def closeDotted (t : Tables) : Tables :=
  let close (item : List Bytes × Mark) :=
    if item.2.dotted && t.opened.isPrefixOf item.1 && item.1 != t.opened then
      (item.1, { item.2 with closed := true, dotted := false })
    else item
  { t with marks := t.marks.map close }

def clear (t : Tables) (path : List Bytes) : Tables :=
  { t with marks := t.marks.filter fun item => item.1 == path || !path.isPrefixOf item.1 }

/-- Defines the rest of a key, whose parts so far lead to `path`. -/
def assignFrom (t : Tables) (path : List Bytes) : List Bytes → Option Tables
  | [] => some t
  | part :: rest =>
      let path := path ++ [part]
      match t.find? path with
      | none =>
          let kind := if rest = [] then .value else .table
          (t.set path ⟨kind, false, true⟩).assignFrom path rest
      | some mark =>
          if rest = [] ∨ mark.kind ≠ .table ∨ mark.closed then none else t.assignFrom path rest

def assign (t : Tables) (key : Key) : Option Tables :=
  t.assignFrom t.opened key.parts

def fresh (keys : List Key) : Bool :=
  (keys.foldlM assign ({} : Tables)).isSome

/-- Walks to the parent of a header's last part, making the tables on the way. -/
def enter (t : Tables) (path : List Bytes) : List Bytes → Option Tables
  | [] => some t
  | part :: rest =>
      let path := path ++ [part]
      match t.find? path with
      | none => (t.set path ⟨.table, false, false⟩).enter path rest
      | some mark => if mark.kind = .value then none else t.enter path rest

def openTable (t : Tables) (key : Key) : Option Tables := do
  let path := key.parts
  let t ← t.closeDotted.enter [] path.dropLast
  match t.find? path with
  | none => some { t.set path ⟨.table, true, false⟩ with opened := path }
  | some mark =>
      if mark.kind ≠ .table ∨ mark.closed then none
      else some { t.set path { mark with closed := true } with opened := path }

def openElement (t : Tables) (key : Key) : Option Tables := do
  let path := key.parts
  let t ← t.closeDotted.enter [] path.dropLast
  match t.find? path with
  | none => some { t.set path ⟨.arrayTable, true, false⟩ with opened := path }
  | some mark => if mark.kind ≠ .arrayTable then none else some { t.clear path with opened := path }

end Tables

end Accumulator.Toml
