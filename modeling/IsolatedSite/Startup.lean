/-
# Starting up

Before anything is served the root is opened and the address is bound.  `StartupFault` has all
that can go wrong from loading the settings on; each fault ends the program with its message.
-/
import IsolatedSite.Net.Ports
import IsolatedSite.Settings.Fault
import IsolatedSite.Site.Serve

namespace IsolatedSite

/-- Why the program ends before it serves. -/
inductive StartupFault where
  | settings (why : Settings.Fault)
  | logFile (why : Files.OsError)
  | root (path : Text) (why : OpenSite.RootFault)
  /-- Host and port that do not make an address. -/
  | address (text : Text)
  | bind (wanted : Net.SocketAddress) (why : Net.BindFault)
  deriving DecidableEq, Repr

/-- The message for a fault. -/
def StartupFault.message : StartupFault → Text
  | .settings why => "configuration error: ".toList ++ why.message
  | .logFile why => why.message.toList
  | .root path why =>
    "document root '".toList ++ path ++ "' is not usable: ".toList ++ why.message
  | .address text =>
    "invalid listen address ".toList ++ text ++ ": invalid socket address syntax".toList
  | .bind wanted why => "failed to bind ".toList ++ wanted.text ++ ": ".toList ++ why.message

namespace Settings

/-- The address to listen on. -/
def listenAddress (s : Settings) : Except StartupFault Net.SocketAddress :=
  match s.address? with
  | some a => .ok a
  | none => .error (.address s.addressText)

/-- Opens the site that settings describe. -/
def openSite (s : Settings) (t : Files.Tree) (who : Files.Caller) (cwd : Files.Location) :
    Except StartupFault OpenSite :=
  (OpenSite.ofSettings s t who cwd).mapError (.root s.serve.root)

/-- Opens the site that settings describe and binds its address. -/
def bind (s : Settings) (t : Files.Tree) (who : Files.Caller) (cwd : Files.Location)
    (ports : Net.Ports) : Except StartupFault (OpenSite × Net.SocketAddress) := do
  let site ← s.openSite t who cwd
  let wanted ← s.listenAddress
  let address ← (ports.bind (who = .administrator) wanted).mapError (.bind wanted)
  .ok (site, address)

end Settings

end IsolatedSite
