/-
# Access log lines

An entry describes one request and its answer.  Four formats turn it into a line: the common log
format, the combined one that adds referer and user agent, a JSON object, and patterns whose
variables stand for parts of the entry.
-/
import IsolatedSite.Calendar.LogTime
import IsolatedSite.Number.Thousandths

namespace IsolatedSite

/-- One request and what it was answered with. -/
structure AccessEntry where
  client : Text
  time : Calendar.LocalTime
  method : Text
  path : Text
  query : Option Text := none
  httpVersion : Text := "1.1".toList
  status : Nat := 200
  /-- The octets of the body; none if nothing was sent. -/
  bodyBytes : Option Nat := none
  referer : Option Text := none
  userAgent : Option Text := none
  /-- How long the answer took. -/
  microseconds : Nat := 0
  deriving DecidableEq, Repr

/-- How entries are written. -/
inductive AccessFormat where
  | common
  | combined
  | json
  | pattern (p : Text)
  deriving DecidableEq, Repr

/-- The format with a given name; any other text is a pattern. -/
def AccessFormat.ofText (t : Text) : AccessFormat :=
  if t = "common".toList then .common
  else if t = "combined".toList then .combined
  else if t = "json".toList then .json
  else .pattern t

namespace AccessEntry

/-! ## 1. Parts of a line -/

/-- Path and query as they were asked for. -/
def uri (e : AccessEntry) : Text :=
  match e.query with
  | some q => e.path ++ '?' :: q
  | none => e.path

/-- The first line of the request. -/
def requestLine (e : AccessEntry) : Text :=
  e.method ++ ' ' :: e.uri ++ " HTTP/".toList ++ e.httpVersion

/-- A dash for what is missing. -/
def orDash (t : Option Text) : Text := t.getD ['-']

/-- The number of body octets. -/
def bytesText (e : AccessEntry) : Text := orDash (e.bodyBytes.map Decimal.ofNat)

/-- The common log format. -/
def commonLine (e : AccessEntry) : Text :=
  e.client ++ " - - [".toList ++ e.time.commonText ++ "] \"".toList ++ e.requestLine ++
    "\" ".toList ++ Decimal.ofNat e.status ++ ' ' :: e.bytesText

/-- The combined log format. -/
def combinedLine (e : AccessEntry) : Text :=
  e.commonLine ++ " \"".toList ++ orDash e.referer ++ "\" \"".toList ++ orDash e.userAgent ++ ['"']

/-! ## 2. JSON -/

/-- The characters that do not stand for themselves inside a JSON string, with what is put in for
them, in the order in which it is done.  The backslash comes first, since the others bring one. -/
def escapes : List (Char × Text) :=
  [('\\', ['\\', '\\']), ('"', ['\\', '"']), ('\n', ['\\', 'n']), ('\r', ['\\', 'r']),
   ('\t', ['\\', 't'])]

/-- A text inside a JSON string: one character after the other is replaced in the whole text. -/
def escaped (t : Text) : Text := escapes.foldl (fun t r => replaceAll [r.1] r.2 t) t

/-- A text as a JSON string. -/
def quoted (t : Text) : Text := '"' :: escaped t ++ ['"']

/-- `null` for what is missing. -/
def orNull (t : Option Text) : Text := t.getD "null".toList

/-- The members of the JSON object, in order. -/
def members (e : AccessEntry) : List (Text × Text) :=
  [("remote_addr".toList, quoted e.client), ("time".toList, '"' :: e.time.isoText ++ ['"']),
   ("method".toList, quoted e.method), ("path".toList, quoted e.path),
   ("query".toList, orNull (e.query.map quoted)),
   ("http_version".toList, quoted e.httpVersion), ("status".toList, Decimal.ofNat e.status),
   ("body_bytes".toList, orNull (e.bodyBytes.map Decimal.ofNat)),
   ("referer".toList, orNull (e.referer.map quoted)),
   ("user_agent".toList, orNull (e.userAgent.map quoted)),
   ("request_time_us".toList, Decimal.ofNat e.microseconds)]

/-- The entry as a JSON object. -/
def jsonLine (e : AccessEntry) : Text :=
  '\x7b' :: joinWith [','] (e.members.map fun m => '"' :: m.1 ++ '"' :: ':' :: m.2) ++ ['\x7d']

/-! ## 3. Patterns -/

/-- The variables of a pattern and their values.  A variable that another one begins with comes
behind it. -/
def patternValues (e : AccessEntry) : List (Text × Text) :=
  [("$remote_addr".toList, e.client), ("$time_local".toList, e.time.commonText),
   ("$time_iso8601".toList, e.time.isoText),
   ("$request_time".toList, Number.millionthsAsThousandths e.microseconds),
   ("$request_method".toList, e.method), ("$request_uri".toList, e.uri),
   ("$request".toList, e.requestLine), ("$status".toList, Decimal.ofNat e.status),
   ("$body_bytes_sent".toList, e.bytesText), ("$http_referer".toList, orDash e.referer),
   ("$http_user_agent".toList, orDash e.userAgent)]

/-- The line of a pattern: the variables are replaced one after the other, each in the text that
the ones before it left. -/
def patternLine (p : Text) (e : AccessEntry) : Text :=
  e.patternValues.foldl (fun line v => replaceAll v.1 v.2 line) p

/-- The line of an entry in a format. -/
def line (f : AccessFormat) (e : AccessEntry) : Text :=
  match f with
  | .common => e.commonLine
  | .combined => e.combinedLine
  | .json => e.jsonLine
  | .pattern p => patternLine p e

end AccessEntry

end IsolatedSite
