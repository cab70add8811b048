/-
# One connection

A connection carries one request.  From what comes in, `serve` determines what is sent back and
what is logged: nothing for a peer that says nothing, an error page for a head that is rejected,
and otherwise the site's answer with a line in the access log.
-/
import IsolatedSite.Connection.Admission
import IsolatedSite.Connection.HeadReader
import IsolatedSite.Site.Serve

namespace IsolatedSite.Connection

open IsolatedSite.Http

/-! ## 1. What surrounds a connection -/

/-- The state of the world that a connection meets: the files, the time, and the peer. -/
structure Surroundings where
  tree : Files.Tree
  caller : Files.Caller
  now : Calendar.LocalTime
  /-- How long the answer takes. -/
  microseconds : Nat
  peer : Net.Ip
  deriving DecidableEq, Repr

/-- What a connection leaves behind: the octets sent, what is written to the access log, and the
entries of the error log. -/
structure Outcome where
  sent : Bytes
  accessLines : List Text
  notices : List Notice
  deriving DecidableEq, Repr

/-- The lines of the access log; a pattern may hold line feeds. -/
def Outcome.accessLog (o : Outcome) : List Text := Text.lines o.accessLines

/-- The lines of the error log. -/
def Outcome.errorLog (o : Outcome) : List Text := Notice.logLines o.notices

/-! ## 2. Messages -/

/-- The current date as a header value. -/
def dateValue (w : Surroundings) : Bytes :=
  Utf8.encode ((Calendar.httpDate? w.now.instant).getD [])

/-- The octets of a version. -/
def versionBytes : Version → Bytes
  | .http10 => ascii "HTTP/1.0"
  | .http11 => ascii "HTTP/1.1"

/-- The version as it is logged. -/
def versionText : Version → Text
  | .http10 => "1.0".toList
  | .http11 => "1.1".toList

/-- Whether an answer with a given status may say how long it is. -/
def mayHaveLength (s : Status) : Bool := 200 ≤ s.code && s.code != 204 && s.code != 304

/-- The fields that the connection itself adds: an end of the connection for HTTP/1.1, a length
where the answer has none, and the date. -/
def completed (w : Surroundings) (v : Version) (r : Response) : Fields :=
  let fs := if v = .http11 then r.fields.set (ascii "connection") (ascii "close") else r.fields
  let fs :=
    if fs.has contentLength ∨ ¬ mayHaveLength r.status then fs
    else fs.add contentLength (Decimal.bytes r.body.length)
  if fs.has (ascii "date") then fs else fs.add (ascii "date") (dateValue w)

/-- An answer in the version of its request. -/
def message (w : Surroundings) (v : Version) (r : Response) : Bytes :=
  statusLine (versionBytes v) r.status (r.status.reason?.getD "<none>".toList) ++
    (completed w v r).flatMap fieldLine ++ lineEnd ++ r.body

/-- The answer to a head that is refused when it is read for good: a bare status. -/
def refusalMessage (w : Surroundings) (why : Refusal) : Bytes :=
  message w .http11 ⟨refusalStatus why, [], []⟩

/-- The answer to a rejected head: an error page with the isolation headers. -/
def rejectionAnswer (site : OpenSite) (w : Surroundings) (why : Rejection) : Response :=
  let page := (errorAnswer why.status (some why.message) false).response
  let r := site.sign page.isolate
  let fields := (r.fields.set (ascii "date") (dateValue w)).set (ascii "connection") (ascii "close")
  { r with fields := fields }

/-! ## 3. The access log -/

/-- The entry for a request and its answer. -/
def entryOf (w : Surroundings) (q : Site.Request) (r : Response) : AccessEntry where
  client := w.peer.text
  time := w.now
  method := asciiText q.method
  path := q.target.path
  query := q.target.query
  httpVersion := versionText q.version
  status := r.status.code
  bodyBytes := if r.body = [] then none else some r.body.length
  referer := q.fields.firstText? (ascii "referer")
  userAgent := q.fields.firstText? (ascii "user-agent")
  microseconds := w.microseconds

/-- The lines that a site logs for a request and its answer. -/
def accessLines (site : OpenSite) (w : Surroundings) (q : Site.Request) (r : Response) :
    List Text :=
  (site.accessLog.map fun f => AccessEntry.line f (entryOf w q r)).toList

/-! ## 4. Serving -/

/-- Answers a request. -/
def serveRequest (site : OpenSite) (w : Surroundings) (q : Site.Request) : Outcome :=
  let reply := site.answer w.tree w.caller q
  match reply.response with
  | none => ⟨[], [], reply.notices⟩
  | some r => ⟨message w q.version r, accessLines site w q r, reply.notices⟩

/-- Answers a head that was accepted. -/
def serveHead (site : OpenSite) (w : Surroundings) (h : Head) : Outcome :=
  match requestOf h with
  | .error why => ⟨refusalMessage w why, [], [.headRefused why]⟩
  | .ok q => serveRequest site w q

/-- Answers a rejected head. -/
def serveRejection (site : OpenSite) (w : Surroundings) (why : Rejection) : Outcome :=
  ⟨(rejectionAnswer site w why).encode, [], [.rejected why]⟩

/-- Serves a connection from what comes in on it. -/
def serve (site : OpenSite) (w : Surroundings) (incoming : Incoming Trouble) : Outcome :=
  match (readHead incoming).1 with
  | .closed => ⟨[], [], []⟩
  | .failed cause => ⟨[], [], [.connectionFailed cause]⟩
  | .rejected why => serveRejection site w why
  | .complete read =>
    match Head.scan read with
    | .done h _ => serveHead site w h
    | _ => ⟨[], [], []⟩

end IsolatedSite.Connection
