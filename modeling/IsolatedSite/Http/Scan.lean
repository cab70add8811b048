/-
# Reading an incomplete text

A scanner looks at the octets that have arrived so far.  It may already know what they begin
with, it may already know that they are malformed whatever follows, or it may have to wait for
more.  `Scan` keeps these three apart, and chaining scanners with `bind` stops at the first one
that does not succeed.
-/
import IsolatedSite.Text.Basic

namespace IsolatedSite.Http

/-- The answer of a scanner with faults of type `ε` and results of type `α`. -/
inductive Scan (ε α : Type) where
  /-- More octets are needed. -/
  | waiting
  /-- No continuation makes the octets well formed. -/
  | refused (fault : ε)
  /-- The result and the octets behind it. -/
  | done (result : α) (rest : Bytes)
  deriving Repr, DecidableEq

namespace Scan

variable {ε α β : Type}

/-- Goes on behind a result. -/
def bind (s : Scan ε α) (next : α → Bytes → Scan ε β) : Scan ε β :=
  match s with
  | .waiting => .waiting
  | .refused e => .refused e
  | .done a rest => next a rest

/-- Changes a result. -/
def map (f : α → β) (s : Scan ε α) : Scan ε β := s.bind fun a rest => .done (f a) rest

/-- The longest run of octets of a class, once an octet outside it has arrived. -/
def run (isIn : UInt8 → Bool) (b : Bytes) : Scan ε Bytes :=
  match b.dropWhile isIn with
  | [] => .waiting
  | x :: rest => .done (b.takeWhile isIn) (x :: rest)

/-- One octet, whatever it is. -/
def next : Bytes → Scan ε UInt8
  | [] => .waiting
  | x :: rest => .done x rest

/-- One given octet; another one is a fault. -/
def expect (fault : ε) (b : UInt8) : Bytes → Scan ε Unit
  | [] => .waiting
  | x :: rest => if x = b then .done () rest else .refused fault

/-- A line end: a line feed, or a carriage return and a line feed. -/
def lineEnd (fault : ε) : Bytes → Scan ε Unit
  | [] => .waiting
  | x :: rest =>
    if x = Byte.lf then .done () rest
    else if x = Byte.cr then expect fault Byte.lf rest
    else .refused fault

end Scan

end IsolatedSite.Http
