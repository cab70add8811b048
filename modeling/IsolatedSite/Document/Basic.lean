/-
# Documents

What a settings file says, whatever its format: nothing, truth values, numbers, texts, lists and
tables.  Members of a table keep the order in which they were written.
-/
import IsolatedSite.Number.Binary64

namespace IsolatedSite

/-- Puts a member into a list of members, in the place of one with the same key. -/
def putMember {α : Type} (key : Text) (x : α) : List (Text × α) → List (Text × α)
  | [] => [(key, x)]
  | m :: ms => if m.1 = key then (key, x) :: ms else m :: putMember key x ms

/-- The content of a settings file, or a part of it. -/
inductive Document where
  | null
  | bool (b : Bool)
  | int (n : Int)
  | float (x : Number.Binary64)
  | text (t : Text)
  | list (items : List Document)
  | table (members : List (Text × Document))

namespace Document

/-- A whole number in the range of 64 bits with a sign. -/
def isInt64 (n : Int) : Bool := -(Nat.pow 2 63 : Nat) ≤ n && n < (Nat.pow 2 63 : Nat)

end Document

end IsolatedSite
