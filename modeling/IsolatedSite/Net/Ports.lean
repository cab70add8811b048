/-
# Ports

Which socket addresses are in use, and what comes of asking for another one.  Port 0 asks for any
port that is free.  An unspecified address stands for all addresses of its family, the one of
version 6 for those of version 4 as well.
-/
import IsolatedSite.Net.Address

namespace IsolatedSite.Net

/-! ## 1. Addresses of this machine -/

/-- The address that stands for all others. -/
def Ip.isUnspecified : Ip → Bool
  | .v4 ip => ip == ⟨0, 0, 0, 0⟩
  | .v6 ip _ => ip.groups.all (· == 0)

/-- An address that leads back to this machine. -/
def Ip.isLoopback : Ip → Bool
  | .v4 ip => ip.a == 127
  | .v6 ip _ => ip.groups == [0, 0, 0, 0, 0, 0, 0, 1]

/-- Whether a socket can have an address on a machine without others than loopback ones. -/
def Ip.isLocal (ip : Ip) : Bool := ip.isUnspecified || ip.isLoopback

/-! ## 2. Binding -/

/-- Why a socket cannot have an address. -/
inductive BindFault where
  | inUse
  | notLocal
  | notAllowed
  deriving DecidableEq, Repr

/-- The message for it. -/
def BindFault.message : BindFault → Text
  | .inUse => "Address already in use (os error 98)".toList
  | .notLocal => "Cannot assign requested address (os error 99)".toList
  | .notAllowed => "Permission denied (os error 13)".toList

/-- Whether two addresses stand for a common one. -/
def Ip.overlaps : Ip → Ip → Bool
  | .v4 a, .v4 b => a == b || Ip.isUnspecified (.v4 a) || Ip.isUnspecified (.v4 b)
  | .v6 a s, .v6 b r => a == b || Ip.isUnspecified (.v6 a s) || Ip.isUnspecified (.v6 b r)
  | .v4 _, .v6 b s => Ip.isUnspecified (.v6 b s)
  | .v6 a s, .v4 _ => Ip.isUnspecified (.v6 a s)

/-- The ports of a machine. -/
structure Ports where
  /-- The addresses in use. -/
  inUse : List SocketAddress
  /-- The lowest port that anyone may use. -/
  lowestOpen : Nat
  /-- The first port that is given to those who ask for any. -/
  firstFree : Nat
  deriving DecidableEq, Repr

namespace Ports

/-- Whether an address is in use. -/
def isTaken (ps : Ports) (a : SocketAddress) : Bool :=
  ps.inUse.any fun b => a.port == b.port && a.ip.overlaps b.ip

/-- A port that nobody uses: one of the first few, one more than there are addresses in use. -/
def free (ps : Ports) : UInt16 :=
  (((List.range (ps.inUse.length + 1)).map fun i => (ps.firstFree + i).toUInt16).find? fun p =>
    ps.inUse.all fun b => p != b.port).getD ps.firstFree.toUInt16

/-- The address that a socket gets when it asks for one. -/
def bind (ps : Ports) (mayAll : Bool) (a : SocketAddress) : Except BindFault SocketAddress :=
  if ¬ a.ip.isLocal then .error .notLocal
  else if a.port = 0 then .ok { a with port := ps.free }
  else if a.port.toNat < ps.lowestOpen ∧ ¬ mayAll then .error .notAllowed
  else if ps.isTaken a then .error .inUse
  else .ok a

/-- The ports with one more address in use. -/
def use (ps : Ports) (a : SocketAddress) : Ports := { ps with inUse := a :: ps.inUse }

end Ports

end IsolatedSite.Net
