/-
# Reading a head for good

A head that was accepted is read once more, and this second reading is stricter about the framing
of the body: content lengths are plain digits, transfer codings plain text, and HTTP/1.0 has no
transfer codings.  It also has a limit for the names of fields.  What passes it becomes a request.
-/
import IsolatedSite.Http.Rejection
import IsolatedSite.Notice
import IsolatedSite.Site.Request

namespace IsolatedSite.Connection

open IsolatedSite.Http

/-! ## 1. Framing -/

/-- The longest body that can be counted. -/
def maxBody : Nat := Nat.pow 2 64 - 3

/-- The longest name that a field may have. -/
def maxFieldName : Nat := 65535

/-- The number that a field of plain digits denotes. -/
def plainLength? (value : Bytes) : Option Nat := Decimal.below? (Nat.pow 2 64) (asciiText value)

/-- Whether the last coding in a value of plain text is `chunked`. -/
def isPlainChunked (value : Bytes) : Bool :=
  match visibleText? value with
  | some t => (Text.trim (afterLast ',' t)).map Char.toLower == "chunked".toList
  | none => false

/-- What the fields so far say about the body: whether there are transfer codings, whether the
last one is `chunked`, and the content length. -/
structure Framing where
  coded : Bool := false
  chunked : Bool := false
  length : Option Nat := none
  deriving DecidableEq, Repr

/-- One field.  Content lengths behind a transfer coding are not looked at. -/
def Framing.step (v : Version) (f : Framing) (field : Bytes × Bytes) : Except Refusal Framing :=
  if Head.isNamed "transfer-encoding" field then
    if v = .http10 then .error .transferCodingInOldVersion
    else .ok { f with coded := true, chunked := isPlainChunked field.2 }
  else if Head.isNamed "content-length" field ∧ ¬ f.coded then
    match plainLength? field.2, f.length with
    | none, _ => .error .contentLength
    | some n, some m => if n = m then .ok f else .error .contentLength
    | some n, none => if n ≤ maxBody then .ok { f with length := some n } else .error .tooLarge
  else .ok f

/-- Judges the fields of a head, the lengths of all names first. -/
def checkFraming (h : Head) : Except Refusal Unit :=
  if h.fields.any fun f => maxFieldName < f.1.length then .error .tooLarge
  else match h.fields.foldlM (Framing.step h.version) {} with
    | .error e => .error e
    | .ok f => if f.coded ∧ ¬ f.chunked then .error .transferCoding else .ok ()

/-! ## 2. Requests -/

/-- The fields of a head under their lower-case names. -/
def fieldsOf (h : Head) : Fields :=
  h.fields.foldl (fun fs f => fs.add (f.1.map Byte.toLower) f.2) []

/-- The request that a head makes, unless it is refused.  A target that cannot be read does not
get this far. -/
def requestOf (h : Head) : Except Refusal Site.Request :=
  match checkFraming h with
  | .error e => .error e
  | .ok () => .ok ⟨h.method, (Target.parse? h.target).getD ⟨[], none⟩, h.version, fieldsOf h⟩

/-- The status of the answer to a refused head. -/
def refusalStatus : Refusal → Status
  | .tooLarge => .fieldsTooLarge
  | _ => .badRequest

end IsolatedSite.Connection
