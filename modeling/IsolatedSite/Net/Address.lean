/-
# Addresses

IPv4 and IPv6 addresses, socket addresses, and the texts that stand for them.  An IPv6 address is
written with its longest run of zero groups cut out (the first of equal ones, and never a single
group); one that maps an IPv4 address ends in it.
-/
import IsolatedSite.Text.Decimal

namespace IsolatedSite.Net

/-! ## 1. Addresses -/

/-- An IPv4 address. -/
structure Ip4 where
  a : UInt8
  b : UInt8
  c : UInt8
  d : UInt8
  deriving DecidableEq, Repr

/-- An IPv6 address: eight groups of 16 bits. -/
structure Ip6 where
  groups : List UInt16
  eight : groups.length = 8
  deriving DecidableEq, Repr

/-- An IP address of either family; one of version 6 may name the interface that it is local to. -/
inductive Ip where
  | v4 (ip : Ip4)
  | v6 (ip : Ip6) (scope : UInt32)
  deriving DecidableEq, Repr

/-- An IP address and a port. -/
structure SocketAddress where
  ip : Ip
  port : UInt16
  deriving DecidableEq, Repr

/-- The address family is IPv4. -/
def Ip.isV4 : Ip → Bool
  | .v4 _ => true
  | .v6 .. => false

/-! ## 2. Printing -/

/-- Four numbers with dots between them. -/
def Ip4.text (ip : Ip4) : Text :=
  joinWith ['.'] ([ip.a, ip.b, ip.c, ip.d].map fun x => Decimal.ofNat x.toNat)

/-- Groups in hexadecimal with colons between them. -/
def groupsText (gs : List UInt16) : Text :=
  joinWith [':'] (gs.map fun g => Nat.toDigits 16 g.toNat)

/-- How many zero groups a list begins with. -/
def leadingZeros (gs : List UInt16) : Nat := (gs.takeWhile (· == 0)).length

/-- Where the longest run of zero groups starts, counted from `at`, and its length. -/
def longestZeros (start : Nat) : List UInt16 → Nat × Nat
  | [] => (start, 0)
  | g :: gs =>
    let here := (start, leadingZeros (g :: gs))
    let later := longestZeros (start + 1) gs
    if here.2 < later.2 then later else here

/-- The IPv4 address that an IPv6 address maps, if it maps one. -/
def Ip6.mapped? (ip : Ip6) : Option Ip4 :=
  match ip.groups with
  | [0, 0, 0, 0, 0, 0xFFFF, x, y] =>
    some ⟨(x >>> 8).toUInt8, x.toUInt8, (y >>> 8).toUInt8, y.toUInt8⟩
  | _ => none

/-- The text of an IPv6 address. -/
def Ip6.text (ip : Ip6) : Text :=
  match ip.mapped? with
  | some v4 => "::ffff:".toList ++ v4.text
  | none =>
    let (start, len) := longestZeros 0 ip.groups
    if 1 < len then
      groupsText (ip.groups.take start) ++ "::".toList ++ groupsText (ip.groups.drop (start + len))
    else groupsText ip.groups

/-- The text of an address without its scope. -/
def Ip.text : Ip → Text
  | .v4 ip => ip.text
  | .v6 ip _ => ip.text

/-- The host part of a socket address: an IPv6 address stands in brackets with its scope. -/
def Ip.hostText : Ip → Text
  | .v4 ip => ip.text
  | .v6 ip scope =>
    '[' :: ip.text ++ (if scope = 0 then [] else '%' :: Decimal.ofNat scope.toNat) ++ [']']

/-- The text of a socket address. -/
def SocketAddress.text (s : SocketAddress) : Text :=
  s.ip.hostText ++ ':' :: Decimal.ofNat s.port.toNat

end IsolatedSite.Net
