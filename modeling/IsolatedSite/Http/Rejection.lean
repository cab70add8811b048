/-
# Rejected heads

The verdict on what has arrived of a request: nothing yet, a head that may be served, or the
reason why it is not.  Beyond the grammar, a head is held to three rules: its target can be
read, every transfer coding ends in `chunked`, and all content lengths are one number.
-/
import IsolatedSite.Http.Head
import IsolatedSite.Http.Status
import IsolatedSite.Http.Target
import IsolatedSite.Text.Blank

namespace IsolatedSite.Http

/-- Why a head is not served. -/
inductive Rejection where
  | malformed
  | unreadableVersion
  | unsupportedVersion
  | tooManyFields
  | tooLong
  deriving DecidableEq, Repr

/-- The status of the answer. -/
def Rejection.status : Rejection → Status
  | .malformed | .unreadableVersion => .badRequest
  | .unsupportedVersion => .versionNotSupported
  | .tooManyFields | .tooLong => .fieldsTooLarge

/-- The message of the answer. -/
def Rejection.message : Rejection → Text
  | .malformed => "Bad request syntax".toList
  | .unreadableVersion => "Bad request version".toList
  | .unsupportedVersion => "Invalid HTTP version".toList
  | .tooManyFields => "Too many headers".toList
  | .tooLong => "Request header fields too large".toList

namespace Head

/-! ## 1. Versions that are not served -/

/-- The octets up to the first carriage return or line feed. -/
def firstLine (b : Bytes) : Bytes := b.takeWhile fun x => x != Byte.cr && x != Byte.lf

/-- The major number of a version `HTTP/M.N` with two 32-bit numbers. -/
def majorVersion? (version : Text) : Option Nat := do
  let numbers ← afterStart? "HTTP/".toList version
  let (major, minor) ← cutAt '.' numbers
  let _ ← Decimal.unsigned? (Nat.pow 2 32) minor
  Decimal.unsigned? (Nat.pow 2 32) major

/-- A version from 2.0 on is a real one that is not supported; everything else is unreadable.
The version is what follows the last space of the first line. -/
def versionRejection (b : Bytes) : Rejection :=
  match (Utf8.decode? (firstLine b)).bind fun line => majorVersion? (afterLast ' ' line) with
  | some major => if 2 ≤ major then .unsupportedVersion else .unreadableVersion
  | none => .unreadableVersion

/-! ## 2. Rules for whole heads -/

/-- Whether a field has a given name, in any case. -/
def isNamed (name : String) (f : Bytes × Bytes) : Bool := sameIgnoringCase f.1 (ascii name)

/-- Whether the last of the transfer codings in a value is `chunked`. -/
def endsInChunked (value : Bytes) : Bool :=
  match Utf8.decode? value with
  | some t => (Text.trim (afterLast ',' t)).map Char.toLower == "chunked".toList
  | none => false

/-- The number in a content length, which white space may surround. -/
def contentLength? (value : Bytes) : Option Nat :=
  (Utf8.decode? value).bind fun t => Decimal.unsigned? (Nat.pow 2 64) (Text.trim t)

/-- All values are numbers, and they are one number. -/
def isOneLength : List Bytes → Bool
  | [] => true
  | v :: vs => (contentLength? v).isSome && vs.all fun w => contentLength? w == contentLength? v

/-- Whether a head that was read may be served. -/
def isAcceptable (h : Head) : Bool :=
  (Target.parse? h.target).isSome &&
    ((h.fields.filter (isNamed "transfer-encoding")).all fun f => endsInChunked f.2) &&
    isOneLength ((h.fields.filter (isNamed "content-length")).map (·.2))

/-! ## 3. The verdict -/

/-- The verdict on what has arrived; none while the head is incomplete. -/
def verdict? (b : Bytes) : Option (Except Rejection Head) :=
  match scan b with
  | .waiting => none
  | .refused .tooManyFields => some (.error .tooManyFields)
  | .refused .version => some (.error (versionRejection b))
  | .refused _ => some (.error .malformed)
  | .done h _ => some (if h.isAcceptable then .ok h else .error .malformed)

end Head

end IsolatedSite.Http
