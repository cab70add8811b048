/-
# Key paths

A key of a source may lead into tables and lists: names with dots between them, and positions in
brackets.  A key that does not read as a path is a name as it stands.

What is in the way gives way: a step by name makes a table, and a step by position makes a list,
which is filled up with nulls.
-/
import IsolatedSite.Layers.Value
import IsolatedSite.Text.Decimal

namespace IsolatedSite

/-- A step of a path. -/
inductive KeyStep where
  | name (key : Text)
  /-- A position, counted from the end if it is negative. -/
  | position (index : Int)
  deriving DecidableEq, Repr

/-- A path into a value. -/
abbrev KeyPath := List KeyStep

namespace KeyPath

/-! ## 1. Reading -/

/-- A character of a name. -/
def isNameChar (c : Char) : Bool := c.isAlphanum || c == ' ' || c == '_' || c == '-'

/-- A name at the start of a text. -/
def name? (t : Text) : Option (KeyStep × Text) :=
  let name := t.takeWhile isNameChar
  if name = [] then none else some (.name name, t.drop name.length)

/-- A position in brackets, from behind the opening one. -/
def position? (t : Text) : Option (KeyStep × Text) := do
  let t := t.dropWhile (· == ' ')
  let digits := t.takeWhile fun c => c.isDigit || c == '-'
  let n ← Decimal.signed64? digits
  match (t.drop digits.length).dropWhile (· == ' ') with
  | ']' :: t => some (.position n, t)
  | _ => none

/-- The steps behind the first one; each of them takes a character of the text at least. -/
def steps? : (fuel : Nat) → Text → Option KeyPath
  | _, [] => some []
  | 0, _ => none
  | fuel + 1, c :: t => do
    let (step, t) ←
      if c = '.' then name? t else if c = '[' then position? t else none
    (steps? fuel t).map fun more => step :: more

/-- The path that a key spells. -/
def ofKey (key : Text) : KeyPath :=
  let path := do
    let (first, t) ← name? key
    let more ← steps? t.length t
    some (first :: more)
  path.getD [.name key]

/-! ## 2. Setting -/

/-- The index that a position means in a list of a given length; none if it counts from the end
and goes beyond the start. -/
def indexOf? (length : Nat) (position : Int) : Option Nat :=
  if 0 ≤ position then some position.toNat
  else if position.natAbs ≤ length then some (length - position.natAbs) else none

/-- Puts an item at an index, with nulls before it where the list is too short. -/
def putItem (index : Nat) (v : Value) (items : List Value) : List Value :=
  (items ++ List.replicate (index + 1 - items.length) (Value.null none)).set index v

/-- The list with an item put in; anything but a list gives way to a new one. -/
def withItem (index : Nat) (v : Value) : Option Value → Value
  | some (.list items o) => .list (putItem index v items) o
  | _ => .list (putItem index v []) none

/-- The items of a list; anything else has none. -/
def itemsOf : Option Value → List Value
  | some (.list items _) => items
  | _ => []

/-- Sets what a path leads to.  None if a position counts beyond the start of a list. -/
def set? (new : Value) : KeyPath → Option Value → Option Value
  | [], old => some (Value.merge old new)
  | .name key :: path, old => do
    let table := old.getD .empty
    let v ← set? new path (table.member? key)
    some (table.withMember key v)
  | .position n :: path, old => do
    let items := itemsOf old
    let index ← indexOf? items.length n
    let v ← if path = [] then some new else set? new path items[index]?
    some (withItem index v old)

end KeyPath

end IsolatedSite
