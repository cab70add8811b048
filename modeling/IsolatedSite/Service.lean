/-
# The service

The whole life of the program: it loads its settings, opens its logs and its site, announces
itself, serves one connection after the other, and ends at a signal.  Lines go to the logs in the
order in which things happen; before the logs are open they go to the error output.
-/
import IsolatedSite.Connection.Exchange
import IsolatedSite.LogTargets
import IsolatedSite.Settings.Loading
import IsolatedSite.Startup

namespace IsolatedSite

/-! ## 1. What there is and what is left -/

/-- The machine that the program is started on. -/
structure Machine where
  tree : Files.Tree
  workplace : Workplace
  vars : List Environment.Variable
  ports : Net.Ports
  deriving DecidableEq, Repr

/-- What a run has written so far: files, and the lines of its two outputs. -/
structure Transcript where
  tree : Files.Tree
  output : List Text := []
  errorOutput : List Text := []
  deriving DecidableEq, Repr

namespace Transcript

/-- Writes an entry to a log, with a line feed behind it.  What cannot be written is lost. -/
def log (r : Transcript) (w : Workplace) (entry : Text) : LogTarget → Transcript
  | .errorOutput => { r with errorOutput := r.errorOutput ++ Text.lines [entry] }
  | .file path =>
    match r.tree.edit w.caller w.modes w.folder path
        (· ++ Utf8.encode entry ++ [Byte.lf]) w.now with
    | .ok tree => { r with tree := tree }
    | .error _ => r

/-- Writes entries to a log. -/
def logAll (r : Transcript) (w : Workplace) (entries : List Text) (target : LogTarget) :
    Transcript :=
  entries.foldl (fun r entry => r.log w entry target) r

end Transcript

namespace Service

/-! ## 2. Starting -/

/-- The lines that announce the service. -/
def banner (address : Net.SocketAddress) : List Text :=
  ["Serving at http://localhost:".toList ++ Decimal.ofNat address.port.toNat,
    "COOP/COEP headers enabled for SharedArrayBuffer".toList]

/-- A service that runs. -/
structure Running where
  site : OpenSite
  address : Net.SocketAddress
  targets : LogTargets
  written : Transcript
  deriving DecidableEq, Repr

/-- The end of a run that failed to start. -/
def failed (r : Transcript) (w : Workplace) (why : StartupFault) (target : LogTarget) :
    Transcript :=
  r.log w (Notice.fatal why.message).line target

/-- Starts the service; if that fails, what was written until then. -/
def start (m : Machine) : Except Transcript Running :=
  let w := m.workplace
  let blank : Transcript := ⟨m.tree, [], []⟩
  let file := SettingsFile.find? m.tree w.caller w.folder Settings.fileName
  match Settings.load file m.vars with
  | .error why => .error (failed blank w (.settings why) .errorOutput)
  | .ok settings =>
    match LogTargets.open? w m.tree settings.logging with
    | .error why => .error (failed blank w (.logFile why) .errorOutput)
    | .ok (tree, targets) =>
      let opened : Transcript := ⟨tree, [], []⟩
      match settings.bind tree w.caller w.folder m.ports with
      | .error why => .error (failed opened w why targets.error)
      | .ok (site, address) =>
        .ok ⟨site, address, targets, { opened with output := banner address }⟩

/-! ## 3. Serving -/

/-- Writes what a connection left behind. -/
def record (s : Running) (w : Workplace) (o : Connection.Outcome) : Running :=
  let r := s.written.logAll w (o.notices.map Notice.line) s.targets.error
  { s with written := r.logAll w o.accessLines s.targets.access }

/-- Serves a connection: the octets that are sent, and the service afterwards. -/
def connection (s : Running) (m : Machine) (incoming : Connection.Incoming Trouble) :
    Bytes × Running :=
  let w := m.workplace
  let around : Connection.Surroundings :=
    { tree := s.written.tree, caller := w.caller, now := ⟨w.now, 0⟩, microseconds := 0,
      peer := .v4 ⟨127, 0, 0, 1⟩ }
  let o := Connection.serve s.site around incoming
  (o.sent, record s w o)

/-- Serves connections one after the other. -/
def connections (s : Running) (m : Machine) : List (Connection.Incoming Trouble) →
    List Bytes × Running
  | [] => ([], s)
  | i :: is =>
    let (sent, s) := connection s m i
    let (more, s) := connections s m is
    (sent :: more, s)

/-- Ends the service at a signal. -/
def stop (s : Running) (w : Workplace) (signal : Text) : Transcript :=
  s.written.log w (Notice.shutdown signal).line s.targets.error

/-! ## 4. The whole -/

/-- A run that has ended: the service as it was when it had started, if it had, what was sent on
each connection, and all that was written. -/
structure Run where
  started : Option Running
  sent : List Bytes
  written : Transcript
  deriving DecidableEq, Repr

/-- The code that the program exits with. -/
def Run.exitCode (r : Run) : Nat := if r.started.isSome then 0 else 1

/-- Runs the program on a machine: it serves the connections that come in and ends at the
signal. -/
def run (m : Machine) (incoming : List (Connection.Incoming Trouble)) (signal : Text) : Run :=
  match start m with
  | .error written => ⟨none, [], written⟩
  | .ok s =>
    let (sent, served) := connections s m incoming
    ⟨some s, sent, stop served m.workplace signal⟩

end Service

end IsolatedSite
