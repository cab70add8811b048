/-
# Request heads

The first line of a request and its fields, up to the empty line.  `Head.scan` looks at what has
arrived so far and is exact about time: a fault is reported as soon as its octet is there, even
if the head is still incomplete.
-/
import IsolatedSite.Http.Scan
import IsolatedSite.Http.Token
import IsolatedSite.Text.Utf8

namespace IsolatedSite.Http

/-- The two versions that are served. -/
inductive Version where
  | http10
  | http11
  deriving DecidableEq, Repr

/-- A request head as it was sent: the names of the fields keep their case. -/
structure Head where
  method : Bytes
  target : Bytes
  version : Version
  fields : List (Bytes × Bytes)
  deriving DecidableEq, Repr

namespace Head

/-- What makes a head malformed. -/
inductive Fault where
  | lineEnd
  | method
  | target
  | version
  | fieldName
  | fieldValue
  | tooManyFields
  deriving DecidableEq, Repr

/-- The most fields that a head may have. -/
def maxFields : Nat := 100

/-! ## 1. The first line -/

/-- Drops the empty lines that may stand in front. -/
def scanEmptyLines : Bytes → Scan Fault Unit
  | [] => .waiting
  | [x] => if x = Byte.lf ∨ x = Byte.cr then .waiting else .done () [x]
  | x :: y :: rest =>
    if x = Byte.lf then scanEmptyLines (y :: rest)
    else if x = Byte.cr then (if y = Byte.lf then scanEmptyLines rest else .refused .lineEnd)
    else .done () (x :: y :: rest)

/-- A method and the space behind it. -/
def scanMethod (b : Bytes) : Scan Fault Bytes :=
  (Scan.run isTokenByte b).bind fun m rest =>
    (Scan.expect .method Byte.space rest).bind fun _ rest =>
      if m = [] then .refused .method else .done m rest

/-- The octets of a target. -/
def isTargetByte (b : UInt8) : Bool := 33 ≤ b && b != 127

/-- A target and the space behind it. -/
def scanTarget (b : Bytes) : Scan Fault Bytes :=
  (Scan.run isTargetByte b).bind fun t rest =>
    (Scan.expect .target Byte.space rest).bind fun _ rest =>
      if t = [] ∨ (Utf8.decode? t).isNone then .refused .target else .done t rest

/-- What the two versions begin with. -/
def versionStart : Bytes := ascii "HTTP/1."

/-- A version.  Eight octets are compared as a whole; of fewer, each has to be right. -/
def scanVersion (b : Bytes) : Scan Fault Version :=
  if 8 ≤ b.length then
    if b.take 8 = versionStart ++ [48] then .done .http10 (b.drop 8)
    else if b.take 8 = versionStart ++ [49] then .done .http11 (b.drop 8)
    else .refused .version
  else if b.isPrefixOf versionStart then .waiting else .refused .version

/-! ## 2. Fields -/

/-- A field name and the colon behind it. -/
def scanName (b : Bytes) : Scan Fault Bytes :=
  (Scan.run isTokenByte b).bind fun n rest =>
    (Scan.expect .fieldName 58 rest).bind fun _ rest =>
      if n = [] then .refused .fieldName else .done n rest

/-- A field value and the line end behind it, without the spaces and tabs at both ends. -/
def scanValue (b : Bytes) : Scan Fault Bytes :=
  (Scan.run isValueByte b).bind fun v rest =>
    (Scan.lineEnd .fieldValue rest).bind fun _ rest => .done (trimBoth isPad v) rest

/-- One line of the fields: a field, or nothing for the empty line that ends the head. -/
def scanLine : Bytes → Scan Fault (Option (Bytes × Bytes))
  | [] => .waiting
  | x :: rest =>
    if x = Byte.cr ∨ x = Byte.lf then
      (Scan.lineEnd .lineEnd (x :: rest)).bind fun _ rest => .done none rest
    else
      (scanName (x :: rest)).bind fun n rest =>
        (scanValue rest).bind fun v rest => .done (some (n, v)) rest

/-- The fields, of which `room` are still allowed, and the empty line. -/
def scanLines : (room : Nat) → Bytes → Scan Fault (List (Bytes × Bytes))
  | 0, b => (scanLine b).bind fun l rest =>
    match l with
    | none => .done [] rest
    | some _ => .refused .tooManyFields
  | room + 1, b => (scanLine b).bind fun l rest =>
    match l with
    | none => .done [] rest
    | some f => (scanLines room rest).map (f :: ·)

/-! ## 3. The whole -/

/-- A request head at the start of what has arrived. -/
def scan (b : Bytes) : Scan Fault Head :=
  (scanEmptyLines b).bind fun _ b =>
    (scanMethod b).bind fun m b =>
      (scanTarget b).bind fun t b =>
        (scanVersion b).bind fun v b =>
          (Scan.lineEnd .lineEnd b).bind fun _ b =>
            (scanLines maxFields b).bind fun fs b => .done ⟨m, t, v, fs⟩ b

end Head

end IsolatedSite.Http
