/-
# Reading raw values as settings

Types are converted where that loses nothing that matters: numbers and truth values are texts
where a text is expected, and the words for yes and no are truth values.  A section may also be
written as a list of its values in their order.
-/
import IsolatedSite.Settings
import IsolatedSite.Settings.Fault

namespace IsolatedSite.Settings

/-! ## 1. Values -/

/-- A value and the key under which it stands. -/
structure Entry where
  key : KeyPath
  value : Value

namespace Entry

/-- The fault of a value that has the wrong type. -/
def fault (e : Entry) (wanted : Wanted) : Fault :=
  .type (.ofValue e.value) wanted e.key e.value.origin

/-- An entry as a text. -/
def text (e : Entry) : Except Fault Text :=
  match e.value with
  | .text t _ => .ok t
  | .bool b _ => .ok (boolText b)
  | .int n _ => .ok (Decimal.ofInt n)
  | .float x _ => .ok x.text
  | _ => .error (e.fault .text)

/-- The words that mean yes. -/
def yes : List Text := ["true".toList, "on".toList, "yes".toList]

/-- The words that mean no. -/
def no : List Text := ["false".toList, "off".toList, "no".toList]

/-- An entry as a truth value. -/
def bool (e : Entry) : Except Fault Bool :=
  match e.value with
  | .bool b _ => .ok b
  | .int n _ => .ok (n != 0)
  | .float x _ => .ok !x.isZero
  | .text t o =>
    let small := Text.lower t
    if small ∈ ['1'] :: yes then .ok true
    else if small ∈ ['0'] :: no then .ok false
    else .error (.type (.text small) .bool e.key o)
  | _ => .error (e.fault .bool)

/-- An entry as a number of 64 bits without a sign. -/
def unsigned (e : Entry) : Except Fault Nat :=
  match e.value with
  | .int n _ => if 0 ≤ n then .ok n.toNat else .error (e.fault .unsigned64)
  | .bool b _ => .ok b.toNat
  | .float x _ => .ok (x.toNatSaturating (Nat.pow 2 64))
  | .text t _ =>
    let small := Text.lower t
    if small ∈ yes then .ok 1
    else if small ∈ no then .ok 0
    else match Decimal.unsigned? (Nat.pow 2 64) t with
      | some n => .ok n
      | none => .error (e.fault .integer)
  | _ => .error (e.fault .integer)

/-- An entry as a port. -/
def port (e : Entry) : Except Fault UInt16 := do
  let n ← e.unsigned
  if n < Nat.pow 2 16 then .ok n.toUInt16
  else .error (.type (.unsigned n) .unsigned16 e.key none)

/-- An entry that may be null, which is nothing. -/
def optional {α : Type} (read : Entry → Except Fault α) (e : Entry) : Except Fault (Option α) :=
  match e.value with
  | .null _ => .ok none
  | _ => (read e).map some

/-- An entry as a list of texts. -/
def texts (e : Entry) : Except Fault (List Text) :=
  match e.value with
  | .list items _ =>
    items.zipIdx.mapM fun p => Entry.text ⟨e.key ++ [.position p.2], p.1⟩
  | v => .error (.noList (.ofValue v))

end Entry

/-! ## 2. Sections -/

/-- The values of a section: by key, or in order. -/
inductive Body where
  | byKey (members : List (Text × Value))
  | inOrder (items : List Value)

/-- The values of a section. -/
def Section.body (s : Section) (root : Value) : Except Fault Body :=
  match root.member? s.key with
  | some (.table ms _) => .ok (.byKey ms)
  | some (.list items _) => .ok (.inOrder items)
  | some v => .error (.noSection (.ofValue v) s)
  | none => .error (.missing [.name s.key])

/-- The entry of a field, if it is there. -/
def Section.entry? (s : Section) (field : Text) : Body → Option Entry
  | .byKey ms => (ms.lookup field).map fun v => ⟨[.name s.key, .name field], v⟩
  | .inOrder items => do
    let i ← s.fields.idxOf? field
    let v ← items[i]?
    some ⟨[.name s.key, .position i], v⟩

/-- The fault of a field that is not there. -/
def Section.absent (s : Section) (field : Text) : Body → Fault
  | .byKey _ => .missing [.name s.key, .name field]
  | .inOrder items => .tooShort items.length s

/-- A field that has to be there. -/
def Section.required {α : Type} (s : Section) (b : Body) (field : String)
    (read : Entry → Except Fault α) : Except Fault α :=
  match s.entry? field.toList b with
  | some e => read e
  | none => .error (s.absent field.toList b)

/-- A field that has a value without being there. -/
def Section.orElse {α : Type} (s : Section) (b : Body) (field : String) (default : α)
    (read : Entry → Except Fault α) : Except Fault α :=
  match s.entry? field.toList b with
  | some e => read e
  | none => .ok default

/-! ## 3. The whole -/

/-- Where to listen. -/
def readServer (root : Value) : Except Fault ServerSettings := do
  let s := Section.server
  let b ← s.body root
  let host ← s.required b "host" Entry.text
  let port ← s.required b "port" Entry.port
  let workers ← s.orElse b "workers" none (Entry.optional Entry.unsigned)
  let serverName ← s.orElse b "server_name" default.server.serverName Entry.text
  .ok { host, port, workers, serverName }

/-- What to serve. -/
def readServe (root : Value) : Except Fault ServeSettings := do
  let s := Section.serve
  let b ← s.body root
  let folder ← s.required b "root" Entry.text
  let indexFiles ← s.orElse b "index_files" default.serve.indexFiles Entry.texts
  let directoryListing ← s.orElse b "directory_listing" default.serve.directoryListing Entry.bool
  .ok { root := folder, indexFiles, directoryListing }

/-- How to log. -/
def readLogging (root : Value) : Except Fault LoggingSettings := do
  let s := Section.logging
  let b ← s.body root
  let accessLog ← s.required b "access_log" Entry.bool
  let accessLogFormat ← s.orElse b "access_log_format" default.logging.accessLogFormat Entry.text
  let accessLogFile ← s.orElse b "access_log_file" none (Entry.optional Entry.text)
  let errorLogFile ← s.orElse b "error_log_file" none (Entry.optional Entry.text)
  .ok { accessLog, accessLogFormat, accessLogFile, errorLogFile }

/-- The settings that a table of sections holds. -/
def ofValue (root : Value) : Except Fault Settings := do
  let server ← readServer root
  let serve ← readServe root
  let logging ← readLogging root
  .ok { server, serve, logging }

end IsolatedSite.Settings
