/-
# Loading settings

Three layers make the settings: what holds by default, the settings file, and the environment.
The file and the environment are laid over each other first, so that a position in a list never
reaches into a default list; the result is laid over the defaults.

How the layers are put together does not depend on how the file is written, so `loadWith` takes what
reads its notation as an argument; `load` reads the notations as `SettingsFormat.read?` does.
-/
import IsolatedSite.Layers.Environment
import IsolatedSite.Layers.SettingsFile
import IsolatedSite.Settings.Reading

namespace IsolatedSite.Settings

/-! ## 1. Settings as raw values -/

/-- A member for a value that is there. -/
def memberOf {α : Type} (key : String) (f : α → Value) (x : Option α) : List (Text × Value) :=
  (x.map fun x => (key.toList, f x)).toList

/-- A text that was not written anywhere. -/
def plainText (t : Text) : Value := .text t none

/-- Where to listen, as a raw value. -/
def serverValue (s : ServerSettings) : Value :=
  .table ([("host".toList, plainText s.host), ("port".toList, .int s.port.toNat none)] ++
    memberOf "workers" (fun n : Nat => .int n none) s.workers ++
    [("server_name".toList, plainText s.serverName)]) none

/-- What to serve, as a raw value. -/
def serveValue (s : ServeSettings) : Value :=
  .table [("root".toList, plainText s.root),
    ("index_files".toList, .list (s.indexFiles.map plainText) none),
    ("directory_listing".toList, .bool s.directoryListing none)] none

/-- How to log, as a raw value. -/
def loggingValue (s : LoggingSettings) : Value :=
  .table ([("access_log".toList, .bool s.accessLog none),
    ("access_log_format".toList, plainText s.accessLogFormat)] ++
    memberOf "access_log_file" plainText s.accessLogFile ++
    memberOf "error_log_file" plainText s.errorLogFile) none

/-- Settings as a raw value. -/
def toValue (s : Settings) : Value :=
  .table [(Section.server.key, serverValue s.server), (Section.serve.key, serveValue s.serve),
    (Section.logging.key, loggingValue s.logging)] none

/-! ## 2. Layers -/

/-- What a settings file sets. -/
def ofFile (read? : SettingsFormat.Reader) (f : SettingsFile) :
    Except Fault (List (Text × Value)) :=
  match read? f.format f.content with
  | some (.table ms) => .ok (Value.ofMembers (some f.name) ms)
  | _ => .error (.file f.name)

/-- Sets what a key leads to. -/
def setKey (v : Value) (s : Text × Value) : Except Fault Value :=
  match (KeyPath.ofKey s.1).set? s.2 (some v) with
  | some v => .ok v
  | none => .error (.position s.1)

/-- What keys set, one after the other. -/
def collect (sets : List (Text × Value)) : Except Fault Value := sets.foldlM setKey .empty

/-- The raw value that the layers make. -/
def effective (sets : List (Text × Value)) : Except Fault Value :=
  (collect sets).map fun v => Value.mergeMembers default.toValue v.members

/-- The settings that a file, read in a given way, and the environment make. -/
def loadWith (read? : SettingsFormat.Reader) (file : Option SettingsFile)
    (vars : List Environment.Variable) : Except Fault Settings := do
  let fromFile ← match file with
    | some f => ofFile read? f
    | none => .ok []
  ofValue (← effective (fromFile ++ Environment.settings vars))

/-- The settings that a file and the environment make. -/
def load : Option SettingsFile → List Environment.Variable → Except Fault Settings :=
  loadWith SettingsFormat.read?

/-- The name of the settings file. -/
def fileName : Text := "coi-serve".toList

end IsolatedSite.Settings
