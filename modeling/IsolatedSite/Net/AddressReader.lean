/-
# Reading addresses

The texts that stand for a socket address: `a.b.c.d:port`, or an IPv6 address in brackets and a
port.  Decimal groups have no zeros in front; of eight hexadecimal groups the last two may be
written as an IPv4 address, and `::` stands for one zero group or more.

Each step takes a text and gives what it read and the rest.
-/
import IsolatedSite.Net.Address
import IsolatedSite.Text.Hex

namespace IsolatedSite.Net

/-- One reading step: what was read and what is left. -/
abbrev Step (α : Type) := Text → Option (α × Text)

/-- One given character. -/
def char (c : Char) : Step Unit
  | [] => none
  | d :: t => if c = d then some ((), t) else none

/-! ## 1. Numbers -/

/-- A decimal number below `limit`, of any length. -/
def number (limit : Nat) : Step Nat := fun t =>
  let digits := t.takeWhile Char.isDigit
  (Decimal.below? limit digits).map fun n => (n, t.drop digits.length)

/-- A number of an IPv4 address: at most three digits, and no zero in front of others. -/
def octet : Step UInt8 := fun t =>
  let digits := t.takeWhile Char.isDigit
  if digits.length = 0 ∨ 3 < digits.length ∨ (digits.head? = some '0' ∧ 1 < digits.length) then
    none
  else (Decimal.below? 256 digits).map fun n => (n.toUInt8, t.drop digits.length)

/-- A group of an IPv6 address: at most four digits. -/
def group : Step UInt16 := fun t =>
  let digits := t.takeWhile Hex.isDigit
  if digits.length = 0 ∨ 4 < digits.length then none
  else some ((Hex.value digits).toUInt16, t.drop digits.length)

/-! ## 2. Addresses -/

/-- An IPv4 address. -/
def ip4 : Step Ip4 := fun t => do
  let (a, t) ← octet t
  let (_, t) ← char '.' t
  let (b, t) ← octet t
  let (_, t) ← char '.' t
  let (c, t) ← octet t
  let (_, t) ← char '.' t
  let (d, t) ← octet t
  pure (⟨a, b, c, d⟩, t)

/-- The two groups of an IPv4 address. -/
def Ip4.groups (ip : Ip4) : List UInt16 :=
  [ip.a.toUInt16 * 256 + ip.b.toUInt16, ip.c.toUInt16 * 256 + ip.d.toUInt16]

/-- A step behind the colon that parts it from an earlier group. -/
def behindColon {α : Type} (first : Bool) (step : Step α) : Step α := fun t =>
  if first then step t else (char ':' t).bind fun r => step r.2

/-- Up to `room` groups, whether they end in an IPv4 address, and the rest. -/
def groupsUpTo : (room : Nat) → (first : Bool) → Text → List UInt16 × Bool × Text
  | 0, _, t => ([], false, t)
  | room + 1, first, t =>
    match (if 0 < room then behindColon first ip4 t else none) with
    | some (ip, t) => (ip.groups, true, t)
    | none =>
      match behindColon first group t with
      | none => ([], false, t)
      | some (g, t) =>
        let (gs, dotted, t) := groupsUpTo room false t
        (g :: gs, dotted, t)

/-- Eight groups make an address. -/
def Ip6.ofGroups? (gs : List UInt16) : Option Ip6 :=
  if h : gs.length = 8 then some ⟨gs, h⟩ else none

/-- An IPv6 address. -/
def ip6 : Step Ip6 := fun t =>
  let (front, dotted, t) := groupsUpTo 8 true t
  if front.length = 8 then (Ip6.ofGroups? front).map fun ip => (ip, t)
  else if dotted then none
  else do
    let (_, t) ← char ':' t
    let (_, t) ← char ':' t
    let (back, _, t) := groupsUpTo (7 - front.length) true t
    let ip ← Ip6.ofGroups? (front ++ List.replicate (8 - front.length - back.length) 0 ++ back)
    pure (ip, t)

/-- A scope; without one it is 0. -/
def scope (t : Text) : UInt32 × Text :=
  match (char '%' t).bind fun r => number (Nat.pow 2 32) r.2 with
  | some (n, t) => (n.toUInt32, t)
  | none => (0, t)

/-- An IPv6 address in brackets. -/
def bracketed : Step Ip := fun t => do
  let (_, t) ← char '[' t
  let (ip, t) ← ip6 t
  let (s, t) := scope t
  let (_, t) ← char ']' t
  pure (.v6 ip s, t)

/-- A colon and a port. -/
def port : Step UInt16 := fun t => do
  let (_, t) ← char ':' t
  let (n, t) ← number 65536 t
  pure (n.toUInt16, t)

/-- The host part of a socket address. -/
def host : Step Ip := fun t =>
  match ip4 t with
  | some (ip, t) => some (.v4 ip, t)
  | none => bracketed t

/-- The socket address that a text stands for. -/
def SocketAddress.read? (t : Text) : Option SocketAddress :=
  match (host t).bind fun r => (Net.port r.2).map fun p => (SocketAddress.mk r.1 p.1, p.2) with
  | some (s, []) => some s
  | _ => none

end IsolatedSite.Net
