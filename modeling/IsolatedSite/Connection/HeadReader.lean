/-
# Waiting for a request head

Octets are read in portions of 4096 until the verdict on all that has arrived is known.  A peer
that says nothing is not answered; one that stops in the middle of a head, or sends 64 KiB
without completing one, is rejected.
-/
import IsolatedSite.Connection.Reads
import IsolatedSite.Http.Rejection

namespace IsolatedSite.Connection

open IsolatedSite.Http

/-- The most octets of one read. -/
def portion : Nat := 4096

/-- The number of octets from which on an incomplete head is too long. -/
def maxHead : Nat := 65536

/-- What became of the head of a connection's request. -/
inductive HeadOutcome (ε : Type) where
  /-- A head to serve, in the octets that were read for it. -/
  | complete (read : Bytes)
  /-- The peer said nothing. -/
  | closed
  | rejected (why : Rejection)
  | failed (e : ε)
  deriving Repr, DecidableEq

variable {ε : Type}

/-- Reads on, `seen` having arrived so far, for at most `fuel` reads. -/
def readHeadFrom : (fuel : Nat) → (seen : Bytes) → Incoming ε → HeadOutcome ε × Incoming ε
  | 0, seen, s => (if seen = [] then .closed else .rejected .malformed, s)
  | fuel + 1, seen, s =>
    match s.read portion with
    | (.error e, s) => (.failed e, s)
    | (.ok [], s) => (if seen = [] then .closed else .rejected .malformed, s)
    | (.ok (x :: xs), s) =>
      let seen := seen ++ x :: xs
      match Head.verdict? seen with
      | some (.ok _) => (.complete seen, s)
      | some (.error why) => (.rejected why, s)
      | none =>
        if maxHead ≤ seen.length then (.rejected .tooLong, s) else readHeadFrom fuel seen s

/-- Reads until the verdict is known, and gives it with what has not been read.  The fuel is more
than there are reads that find something. -/
def readHead (s : Incoming ε) : HeadOutcome ε × Incoming ε := readHeadFrom (s.weight + 1) [] s

end IsolatedSite.Connection
