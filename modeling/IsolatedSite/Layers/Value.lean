/-
# Raw values

What the sources of settings say, before it is read as settings.  A value remembers where it was
written; one that was made to hold others was not written anywhere.

Sources are layers: `merge` lays a value over another one.  Tables grow together member by
member, and anything else takes the place of what was there.
-/
import IsolatedSite.Document.Basic
import IsolatedSite.Text.Lowercase

namespace IsolatedSite

/-- A raw value and where it comes from. -/
inductive Value where
  | null (origin : Option Text)
  | bool (b : Bool) (origin : Option Text)
  | int (n : Int) (origin : Option Text)
  | float (x : Number.Binary64) (origin : Option Text)
  | text (t : Text) (origin : Option Text)
  | list (items : List Value) (origin : Option Text)
  | table (members : List (Text × Value)) (origin : Option Text)

namespace Value

/-! ## 1. Documents -/

mutual

/-- The value of a document, its keys in small letters. -/
def ofDocument (origin : Option Text) : Document → Value
  | .null => .null origin
  | .bool b => .bool b origin
  | .int n => .int n origin
  | .float x => .float x origin
  | .text t => .text t origin
  | .list ds => .list (ofItems origin ds) origin
  | .table ms => .table (ofMembers origin ms) origin

/-- The values of the items of a list. -/
def ofItems (origin : Option Text) : List Document → List Value
  | [] => []
  | d :: ds => ofDocument origin d :: ofItems origin ds

/-- The values of the members of a table. -/
def ofMembers (origin : Option Text) : List (Text × Document) → List (Text × Value)
  | [] => []
  | (key, d) :: ms => (Text.lower key, ofDocument origin d) :: ofMembers origin ms

end

/-! ## 2. Tables -/

/-- A table with nothing in it. -/
def empty : Value := .table [] none

/-- The members of a table; anything else has none. -/
def members : Value → List (Text × Value)
  | .table ms _ => ms
  | _ => []

/-- Where a value was written. -/
def origin : Value → Option Text
  | .null o | .bool _ o | .int _ o | .float _ o | .text _ o | .list _ o | .table _ o => o

/-- The member with a key. -/
def member? (v : Value) (key : Text) : Option Value := v.members.lookup key

/-- The table with a member put in; anything but a table gives way to a new one. -/
def withMember (old : Value) (key : Text) (v : Value) : Value :=
  match old with
  | .table ms o => .table (putMember key v ms) o
  | _ => .table [(key, v)] none

/-! ## 3. Laying one over another -/

mutual

/-- The value that a new one makes of what is there.  A table without members changes nothing. -/
def merge : Option Value → Value → Value
  | old, .table ms _ => mergeMembers (old.getD empty) ms
  | _, v => v

/-- Lays members over a value, one after the other. -/
def mergeMembers : Value → List (Text × Value) → Value
  | old, [] => old
  | old, (key, v) :: ms => mergeMembers (old.withMember key (merge (old.member? key) v)) ms

end

end Value

end IsolatedSite
