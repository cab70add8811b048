/-
# Reading a head twice

The octets that were read to judge a head are handed back: `Rewound` is a stream that first gives
them again, in portions of any size, and then goes on with what is still coming in.  A read of no
octets goes straight to what is coming in.  `Duplex` adds the other direction, which nothing was
put back into: what is written goes out as it is.
-/
import IsolatedSite.Connection.Reads

namespace IsolatedSite.Connection

/-- A stream with octets put back in front of it. -/
structure Rewound (ε : Type) where
  putBack : Bytes
  incoming : Incoming ε
  deriving Repr, DecidableEq

namespace Rewound

variable {ε : Type}

/-! ## 1. Reading -/

/-- One read of up to `n` octets. -/
def read (n : Nat) (r : Rewound ε) : Except ε Bytes × Rewound ε :=
  if r.putBack ≠ [] ∧ 0 < n then
    (.ok (r.putBack.take n), { r with putBack := r.putBack.drop n })
  else
    let (found, rest) := r.incoming.read n
    (found, { r with incoming := rest })

/-- All octets that are still to come. -/
def remaining (r : Rewound ε) : Bytes := r.putBack ++ r.incoming.unread

/-- Reads portions of `n` octets until one finds the end or fails, for at most `fuel` reads. -/
def readAllFrom (n : Nat) : (fuel : Nat) → Rewound ε → Except ε Bytes × Rewound ε
  | 0, r => (.ok [], r)
  | fuel + 1, r =>
    match r.read n with
    | (.error e, r) => (.error e, r)
    | (.ok [], r) => (.ok [], r)
    | (.ok (x :: xs), r) =>
      let (more, r) := readAllFrom n fuel r
      (more.map fun m => x :: xs ++ m, r)

/-- Reads to the end in portions of `n` octets. -/
def readAll (n : Nat) (r : Rewound ε) : Except ε Bytes × Rewound ε :=
  readAllFrom n (r.putBack.length + r.incoming.weight + 1) r

end Rewound

/-! ## 2. Both directions -/

/-- A stream that is read and written. -/
structure Duplex (ε : Type) where
  reading : Rewound ε
  sent : Bytes
  /-- Several pieces are written as fast as one. -/
  takesParts : Bool
  deriving Repr, DecidableEq

/-- What a stream is used for. -/
inductive Use where
  | read (room : Nat)
  | write (b : Bytes)
  | writeParts (parts : List Bytes)
  | flush
  | shutDown
  /-- Asks whether several pieces are written as fast as one. -/
  | askForParts
  deriving Repr, DecidableEq

/-- What comes of a use. -/
inductive Effect where
  | found (b : Bytes)
  /-- So many octets went out. -/
  | taken (count : Nat)
  | done
  | flag (yes : Bool)
  deriving Repr, DecidableEq

/-- The octets that a use delivers; only reads deliver any. -/
def Effect.octets : Effect → Bytes
  | .found b => b
  | _ => []

namespace Duplex

variable {ε : Type}

/-- One use. -/
def use (d : Duplex ε) : Use → Except ε Effect × Duplex ε
  | .read room =>
    let (found, r) := d.reading.read room
    (found.map .found, { d with reading := r })
  | .write b => (.ok (.taken b.length), { d with sent := d.sent ++ b })
  | .writeParts parts =>
    (.ok (.taken parts.flatten.length), { d with sent := d.sent ++ parts.flatten })
  | .flush | .shutDown => (.ok .done, d)
  | .askForParts => (.ok (.flag d.takesParts), d)

/-- Uses one after the other, up to the first that fails. -/
def useAll : List Use → Duplex ε → Except ε (List Effect) × Duplex ε
  | [], d => (.ok [], d)
  | u :: us, d =>
    match d.use u with
    | (.error e, d) => (.error e, d)
    | (.ok effect, d) =>
      let (more, d) := useAll us d
      (more.map fun effects => effect :: effects, d)

end Duplex

end IsolatedSite.Connection
