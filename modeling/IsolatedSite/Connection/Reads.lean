/-
# What reads find

The incoming side of a connection, as the list of what successive reads find: some octets, or a
failure.  One read takes at most as many octets as it asks for and never reaches into the next
item; behind the last item every read finds the end.
-/
import IsolatedSite.Text.Basic

namespace IsolatedSite.Connection

/-- What one read finds. -/
inductive Arrival (ε : Type) where
  | octets (b : Bytes)
  | failure (e : ε)
  deriving Repr, DecidableEq

/-- The incoming side of a connection. -/
abbrev Incoming (ε : Type) := List (Arrival ε)

namespace Incoming

variable {ε : Type}

/-- One read of up to `n` octets, and what is left.  A read of no octets leaves the item that it
finds in place. -/
def read (n : Nat) : Incoming ε → Except ε Bytes × Incoming ε
  | [] => (.ok [], [])
  | .failure e :: rest => (.error e, rest)
  | .octets b :: rest =>
    let left := b.drop n
    (.ok (b.take n), if b = [] ∨ (left = [] ∧ 0 < n) then rest else .octets left :: rest)

/-- The octets that have not been read. -/
def unread (s : Incoming ε) : Bytes :=
  s.flatMap fun a => match a with
    | .octets b => b
    | .failure _ => []

/-- How many reads with room for at least one octet can find something. -/
def weight (s : Incoming ε) : Nat :=
  s.foldr (fun a n => match a with
    | .octets b => b.length + 1 + n
    | .failure _ => 1 + n) 0

end Incoming

end IsolatedSite.Connection
