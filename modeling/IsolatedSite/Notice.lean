/-
# The error log

Everything that is written to the error log, by cause.  `Notice.line` has the wording, which
begins with a tag for how serious it is.  A notice that shows a line feed takes several lines of the
log (`Notice.logLines`).
-/
import IsolatedSite.Files.OsError
import IsolatedSite.Http.Rejection
import IsolatedSite.Path
import IsolatedSite.Text.Utf8

namespace IsolatedSite

/-! ## 1. Failures of connections -/

/-- A failure that a peer or the network causes. -/
inductive Trouble where
  | reset
  | aborted
  | brokenPipe
  | timedOut
  | unexpectedEnd
  | other (kind : Text)
  deriving DecidableEq, Repr

/-- The message for it. -/
def Trouble.message : Trouble → Text
  | .reset => "Connection reset by peer (os error 104)".toList
  | .aborted => "Software caused connection abort (os error 103)".toList
  | .brokenPipe => "Broken pipe (os error 32)".toList
  | .timedOut => "Connection timed out (os error 110)".toList
  | .unexpectedEnd => "unexpected end of file".toList
  | .other kind => kind

/-- Why a head that was accepted at first is refused when it is read for good. -/
inductive Refusal where
  | contentLength
  | transferCoding
  | transferCodingInOldVersion
  | tooLarge
  deriving DecidableEq, Repr

/-- The message for it. -/
def Refusal.message : Refusal → Text
  | .contentLength => "invalid content-length parsed".toList
  | .transferCoding => "invalid transfer-encoding parsed".toList
  | .transferCodingInOldVersion => "unexpected transfer-encoding parsed".toList
  | .tooLarge => "message head is too large".toList

/-! ## 2. Notices -/

/-- An entry of the error log. -/
inductive Notice where
  /-- An answer of a given shape could not be built. -/
  | unbuildable (shape : Text)
  /-- The file system failed at a path in an unexpected way. -/
  | inaccessible (path : Path) (cause : Files.OsError)
  | unlistable (path : Path) (cause : Files.OsError)
  /-- A request led to a node outside the root. -/
  | outsideRoot (requested : Text) (real : Path)
  | rejected (why : Http.Rejection)
  | connectionFailed (cause : Trouble)
  | headRefused (cause : Refusal)
  | shutdown (signal : Text)
  /-- The server could not start. -/
  | fatal (message : Text)
  deriving DecidableEq, Repr

namespace Notice

/-- How a path is shown. -/
def shown (p : Path) : Text := Utf8.decodeLossy p

/-- What is written for an entry, the line feed at its end apart. -/
def line : Notice → Text
  | .unbuildable shape =>
    "[ERROR] Failed to build ".toList ++ shape ++
      " response: failed to parse header value".toList
  | .inaccessible path cause =>
    "[WARN] Cannot access '".toList ++ shown path ++ "': ".toList ++ cause.message.toList
  | .unlistable path cause =>
    "[WARN] Cannot list directory '".toList ++ shown path ++ "': ".toList ++
      cause.message.toList
  | .outsideRoot requested real =>
    "[WARN] Path traversal attempt blocked: ".toList ++ requested ++ " -> ".toList ++ shown real
  | .rejected why =>
    "[ERROR] code ".toList ++ Decimal.ofNat why.status.code ++ ", message ".toList ++ why.message
  | .connectionFailed cause =>
    "[ERROR] Failed to serve connection: ".toList ++ cause.message
  | .headRefused cause => "[ERROR] Failed to serve connection: ".toList ++ cause.message
  | .shutdown signal => "[INFO] ".toList ++ signal ++ " received, shutting down".toList
  | .fatal message => "[ERROR] ".toList ++ message

/-- The text that entries leave in the log. -/
def logOf (notices : List Notice) : Text := notices.flatMap fun n => n.line ++ ['\n']

/-- The lines that entries take in the log. -/
def logLines (notices : List Notice) : List Text := Text.lines (notices.map line)

end Notice

end IsolatedSite
