/-
# Responses and their wire form

A response is a status, fields and a body.  `Response.encode` writes it as an HTTP/1.1 message
with the field names in title case; `Response.read?` knows nothing of how a message was put
together, and finds its parts by the line ends.
-/
import IsolatedSite.Http.Isolation
import IsolatedSite.Http.Status

namespace IsolatedSite.Http

/-- What a request is answered with. -/
structure Response where
  status : Status
  fields : Fields
  body : Bytes
  deriving DecidableEq, Repr

/-- The response with the isolation headers. -/
def Response.isolate (r : Response) : Response := { r with fields := r.fields.isolate }

/-! ## 1. Writing -/

/-- The end of a line. -/
def lineEnd : Bytes := [Byte.cr, Byte.lf]

/-- Capital letters at the start of a name and behind each hyphen; `up` says whether the next
octet is at such a place. -/
def titleCaseFrom : (up : Bool) → Bytes → Bytes
  | _, [] => []
  | up, b :: bs => (if up then Byte.toUpper b else b) :: titleCaseFrom (b == 45) bs

/-- A field name as it is sent. -/
def titleCase (name : Bytes) : Bytes := titleCaseFrom true name

/-- A field as a line. -/
def fieldLine (f : Field) : Bytes := titleCase f.1 ++ ascii ": " ++ f.2 ++ lineEnd

/-- The first line of an answer in a given version. -/
def statusLine (version : Bytes) (s : Status) (reason : Text) : Bytes :=
  version ++ Byte.space :: Decimal.bytes s.code ++
    Byte.space :: (reason.map fun c => c.toNat.toUInt8) ++ lineEnd

/-- The message in HTTP/1.1. -/
def Response.encode (r : Response) : Bytes :=
  statusLine (ascii "HTTP/1.1") r.status (r.status.reason?.getD "Unknown".toList) ++
    r.fields.flatMap fieldLine ++ lineEnd ++ r.body

/-! ## 2. Reading -/

/-- The octets before the first two line ends in a row, and those behind them. -/
def cutHead? : Bytes → Option (Bytes × Bytes)
  | 13 :: 10 :: 13 :: 10 :: body => some ([], body)
  | [] => none
  | x :: rest => (cutHead? rest).map fun p => (x :: p.1, p.2)

/-- The pieces between the line ends. -/
def linesOf : Bytes → List Bytes
  | 13 :: 10 :: rest => [] :: linesOf rest
  | [] => [[]]
  | x :: rest => match linesOf rest with
    | [] => [[x]]
    | l :: ls => (x :: l) :: ls

/-- A header line at its first colon and space. -/
def fieldOfLine? : Bytes → Option Field
  | 58 :: 32 :: value => some ([], value)
  | [] => none
  | x :: rest => (fieldOfLine? rest).map fun f => (Byte.toLower x :: f.1, f.2)

/-- The status in the first line of an answer: the three digits behind the version. -/
def statusOfLine? (line : Bytes) : Option Status :=
  (Decimal.value? (asciiText ((line.drop 9).take 3))).bind Status.ofNat?

/-- The response that a message holds: the status in the first line of the head, a field in each
further line, and the body behind the head. -/
def Response.read? (b : Bytes) : Option Response := do
  let (head, body) ← cutHead? b
  match linesOf head with
  | first :: lines =>
    let status ← statusOfLine? first
    let fields ← lines.mapM fieldOfLine?
    some ⟨status, fields, body⟩
  | [] => none

end IsolatedSite.Http
