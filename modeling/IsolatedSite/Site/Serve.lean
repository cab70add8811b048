/-
# Serving files

The way from an inquiry to an answer: the path is translated, looked up and checked to lie under
the root after links are followed; a folder without a slash at the end of the path is redirected,
one with a slash is answered with its first index file or a listing, and a file is sent unless
the client has it already.
-/
import IsolatedSite.Http.ContentType
import IsolatedSite.Settings
import IsolatedSite.AccessLog
import IsolatedSite.Site.Freshness
import IsolatedSite.Site.Handling
import IsolatedSite.Site.Listing
import IsolatedSite.Site.Request
import IsolatedSite.Site.Translation

namespace IsolatedSite

open IsolatedSite.Http

/-- A site that is open: its settings, the canonical path of its root, and how requests are
logged. -/
structure OpenSite where
  settings : Settings
  root : Path
  accessLog : Option AccessFormat
  deriving DecidableEq, Repr

namespace OpenSite

/-! ## 1. Opening -/

/-- Why a root cannot be served. -/
inductive RootFault where
  | os (cause : Files.OsError)
  | noFolder
  deriving DecidableEq, Repr

/-- The message for it. -/
def RootFault.message : RootFault → Text
  | .os cause => cause.message.toList
  | .noFolder => "not a directory".toList

/-- Opens the site that settings describe, seen from a working directory. -/
def ofSettings (s : Settings) (t : Files.Tree) (who : Files.Caller) (cwd : Files.Location) :
    Except RootFault OpenSite :=
  match t.canonical who cwd (Utf8.encode s.serve.root) with
  | .error e => .error (.os e)
  | .ok root =>
    if t.isFolder who [] root then
      .ok ⟨s, root,
        if s.logging.accessLog then some (.ofText s.logging.accessLogFormat) else none⟩
    else .error .noFolder

/-! ## 2. Containment -/

/-- Stops unless what a path names lies under the root, links followed. -/
def ensureContained (site : OpenSite) (t : Files.Tree) (who : Files.Caller) (target : Path)
    (requested : Text) : Site.Handling Unit := do
  let real ← .ofFiles target (t.canonical who [] target)
  if Path.startsWith real site.root then .done ()
  else .failWith (.outsideRoot requested real) .forbidden

/-! ## 3. Files -/

/-- The modification time and content of a node, as a file. -/
def modifiedOf : Files.Node → Calendar.Instant
  | .file _ modified _ => modified
  | _ => ⟨0, 0⟩

/-- Answers with a file. -/
def serveFile (site : OpenSite) (t : Files.Tree) (who : Files.Caller) (q : Site.Inquiry)
    (path : Path) : Site.Handling Response := do
  site.ensureContained t who path q.path
  let node ← .ofFiles path (t.stat who [] path)
  let modified := modifiedOf node
  let unchanged ← .orFail .undatable
    (Site.isNotModified? q.ifModifiedSince q.hasIfNoneMatch modified)
  if unchanged then
    let date ← .orFail .undatable (Calendar.httpDate? modified)
    .ofBuilt (notModifiedAnswer date)
  else
    let content ← .ofFiles path (t.read who [] path)
    let date ← .orFail .undatable (Calendar.httpDate? modified)
    .ofBuilt (fileAnswer content (ContentType.ofPath path) date q.isHead)

/-! ## 4. Folders -/

/-- Whether a URL path ends in a slash. -/
def endsInSlash (path : Text) : Bool := path.getLast? == some '/'

/-- Where a folder without a slash at the end of its path is sent. -/
def slashedLocation (q : Site.Inquiry) : Text :=
  match q.query with
  | some query => q.path ++ "/?".toList ++ query
  | none => q.path ++ ['/']

/-- The path of the first index file that is there. -/
def indexPath? (site : OpenSite) (t : Files.Tree) (who : Files.Caller) (folder : Path) :
    Option Path :=
  (site.settings.serve.indexFiles.map fun f => Path.join folder (Utf8.encode f)).find? fun p =>
    t.isFile who [] p

/-- Answers with the listing of a folder. -/
def serveListing (t : Files.Tree) (who : Files.Caller) (q : Site.Inquiry) (folder : Path) :
    Site.Handling Response :=
  match Site.rowsOf t who folder with
  | .ok rows => .ofBuilt (pageAnswer (Site.listingPage (Percent.decodeText q.path) rows) q.isHead)
  | .error e => .failWith (.unlistable folder e) .listingDenied

/-- Answers with what stands for a folder. -/
def serveFolder (site : OpenSite) (t : Files.Tree) (who : Files.Caller) (q : Site.Inquiry)
    (folder : Path) : Site.Handling Response :=
  if ¬ endsInSlash q.path then .ofBuilt (redirectAnswer (slashedLocation q))
  else match site.indexPath? t who folder with
    | some index => site.serveFile t who q index
    | none =>
      if site.settings.serve.directoryListing then serveListing t who q folder
      else .fail .forbidden

/-! ## 5. The whole -/

/-- Finds what an inquiry asks for. -/
def resolve (site : OpenSite) (t : Files.Tree) (who : Files.Caller) (q : Site.Inquiry) :
    Site.Handling Response := do
  let target ← .orFail .notFound (Site.translate? site.root q.path)
  let node ← .ofFiles target (t.stat who [] target)
  site.ensureContained t who target q.path
  match node with
  | .folder _ => site.serveFolder t who q target
  | _ => if endsInSlash q.path then .fail .notFound else site.serveFile t who q target

/-- An answer, unless the request is dropped, and the notices about it. -/
structure Reply where
  response : Option Response
  notices : List Notice
  deriving DecidableEq, Repr

/-- The lines of the error log about it. -/
def Reply.errorLog (r : Reply) : List Text := Notice.logLines r.notices

/-- A built answer as a reply. -/
def Reply.ofBuilt (b : Built) : Reply :=
  ⟨some b.response, b.failed.toList.map Notice.unbuildable⟩

/-- Answers an inquiry; a failure becomes its error page. -/
def serve (site : OpenSite) (t : Files.Tree) (who : Files.Caller) (q : Site.Inquiry) : Reply :=
  let h := site.resolve t who q
  match h.result with
  | .ok r => ⟨some r, h.notices⟩
  | .error e => match e.page? with
    | none => ⟨none, h.notices⟩
    | some (status, message) =>
      let b := errorAnswer status (some message) q.isHead
      ⟨some b.response, h.notices ++ b.failed.toList.map Notice.unbuildable⟩

/-- The message for a method that is not served. -/
def unsupportedMethod (method : Bytes) : Text :=
  "Unsupported method ('".toList ++ asciiText method ++ "')".toList

/-- Names the server in an answer, if its name fits into a header. -/
def sign (site : OpenSite) (r : Response) : Response :=
  let name := Utf8.encode site.settings.server.serverName
  if name.all isValueByte then { r with fields := r.fields.set (ascii "server") name } else r

/-- Answers a request, before the isolation headers are added. -/
def handle (site : OpenSite) (t : Files.Tree) (who : Files.Caller) (r : Site.Request) : Reply :=
  let reply :=
    if r.method = Site.methodGet ∨ r.method = Site.methodHead then
      site.serve t who (.ofRequest r)
    else .ofBuilt (errorAnswer .notImplemented (some (unsupportedMethod r.method)) false)
  { reply with response := reply.response.map site.sign }

/-- Answers a request. -/
def answer (site : OpenSite) (t : Files.Tree) (who : Files.Caller) (r : Site.Request) : Reply :=
  let reply := site.handle t who r
  { reply with response := reply.response.map Response.isolate }

end OpenSite

end IsolatedSite
