/-
# Settings key by key

Sections are read field after field, and each field in its own way.  This file takes the fields
apart: a key (`Settings.Key`) has a section and a name, a type, a way to be read and something that
holds where it has no value.  `ofValue_eq_ok` says that settings are read from a raw value exactly
if each key is read from what stands under it, and `exists_ofValue_eq_ok` that nothing else can go
wrong.  Both are about raw values whose sections are tables.
-/
import IsolatedSite.Proofs.RawValues
import IsolatedSite.Settings.Loading
import Mathlib.Tactic.Choose

namespace IsolatedSite.Settings

/-! ## 1. The keys of settings -/

/-- A key that can be set. -/
inductive Key where
  | host
  | port
  | workers
  | serverName
  | root
  | indexFiles
  | directoryListing
  | accessLog
  | accessLogFormat
  | accessLogFile
  | errorLogFile
  deriving DecidableEq, Repr

namespace Key

/-- The section that a key belongs to. -/
def part : Key → Section
  | .host | .port | .workers | .serverName => .server
  | .root | .indexFiles | .directoryListing => .serve
  | .accessLog | .accessLogFormat | .accessLogFile | .errorLogFile => .logging

/-- How a key is written in its section. -/
def field : Key → String
  | .host => "host"
  | .port => "port"
  | .workers => "workers"
  | .serverName => "server_name"
  | .root => "root"
  | .indexFiles => "index_files"
  | .directoryListing => "directory_listing"
  | .accessLog => "access_log"
  | .accessLogFormat => "access_log_format"
  | .accessLogFile => "access_log_file"
  | .errorLogFile => "error_log_file"

/-- The type of what a key sets. -/
def Content : Key → Type
  | .host | .serverName | .root | .accessLogFormat => Text
  | .port => UInt16
  | .workers => Option Nat
  | .indexFiles => List Text
  | .directoryListing | .accessLog => Bool
  | .accessLogFile | .errorLogFile => Option Text

instance : (k : Key) → DecidableEq k.Content
  | .host | .serverName | .root | .accessLogFormat => inferInstanceAs (DecidableEq Text)
  | .port => inferInstanceAs (DecidableEq UInt16)
  | .workers => inferInstanceAs (DecidableEq (Option Nat))
  | .indexFiles => inferInstanceAs (DecidableEq (List Text))
  | .directoryListing | .accessLog => inferInstanceAs (DecidableEq Bool)
  | .accessLogFile | .errorLogFile => inferInstanceAs (DecidableEq (Option Text))

/-- What settings say for a key. -/
def get : (k : Key) → Settings → k.Content
  | .host => fun s => s.server.host
  | .port => fun s => s.server.port
  | .workers => fun s => s.server.workers
  | .serverName => fun s => s.server.serverName
  | .root => fun s => s.serve.root
  | .indexFiles => fun s => s.serve.indexFiles
  | .directoryListing => fun s => s.serve.directoryListing
  | .accessLog => fun s => s.logging.accessLog
  | .accessLogFormat => fun s => s.logging.accessLogFormat
  | .accessLogFile => fun s => s.logging.accessLogFile
  | .errorLogFile => fun s => s.logging.errorLogFile

/-- How the value of a key is read. -/
def reader : (k : Key) → Entry → Except Fault k.Content
  | .host | .serverName | .root | .accessLogFormat => Entry.text
  | .port => Entry.port
  | .workers => Entry.optional Entry.unsigned
  | .indexFiles => Entry.texts
  | .directoryListing | .accessLog => Entry.bool
  | .accessLogFile | .errorLogFile => Entry.optional Entry.text

/-- What holds where a key has no value; a key without such a content has to have one. -/
def unset? : (k : Key) → Option k.Content
  | .host | .port | .root | .accessLog => none
  | .workers => some (none : Option Nat)
  | .serverName => some default.server.serverName
  | .indexFiles => some default.serve.indexFiles
  | .directoryListing => some default.serve.directoryListing
  | .accessLogFormat => some default.logging.accessLogFormat
  | .accessLogFile | .errorLogFile => some (none : Option Text)

/-- The content of a key with a given raw value, or with none; nothing if the value has another
type than the key. -/
def read? (k : Key) : Option Value → Option k.Content
  | some v => (k.reader ⟨[.name k.part.key, .name k.field.toList], v⟩).toOption
  | none => k.unset?

/-- The raw value under a key. -/
def of (k : Key) (root : Value) : Option Value := root.at? k.part.key k.field.toList

/-- A key of a section whose values are given. -/
def readIn (k : Key) (b : Body) : Except Fault k.Content :=
  match k.unset? with
  | none => k.part.required b k.field k.reader
  | some d => k.part.orElse b k.field d k.reader

/-- Settings by their keys. -/
def settings (c : (k : Key) → k.Content) : Settings where
  server := ⟨c .host, c .port, c .workers, c .serverName⟩
  serve := ⟨c .root, c .indexFiles, c .directoryListing⟩
  logging := ⟨c .accessLog, c .accessLogFormat, c .accessLogFile, c .errorLogFile⟩

@[simp] theorem get_settings (c : (k : Key) → k.Content) (k : Key) : k.get (settings c) = c k := by
  cases k <;> rfl

end Key

/-! ## 2. Reading key by key -/

theorem bind_eq_ok {ε α β : Type} {x : Except ε α} {next : α → Except ε β} {b : β} :
    (x >>= next) = .ok b ↔ ∃ a, x = .ok a ∧ next a = .ok b := by
  cases x with
  | error e => simp [bind, Except.bind]
  | ok a => simp [bind, Except.bind]

theorem map_eq_ok {ε α β : Type} {f : α → β} {x : Except ε α} {b : β} :
    x.map f = .ok b ↔ ∃ a, x = .ok a ∧ f a = b := by
  cases x <;> simp [Except.map]

theorem toOption_eq_some {ε α : Type} {x : Except ε α} {a : α} :
    x.toOption = some a ↔ x = .ok a := by
  cases x <;> simp [Except.toOption]

/-- A key of a table is read from its own value, or from its absence. -/
theorem Key.readIn_eq_ok (k : Key) {ms : List (Text × Value)} {c : k.Content} :
    k.readIn (.byKey ms) = .ok c ↔ k.read? (ms.lookup k.field.toList) = some c := by
  unfold Key.readIn Key.read? Section.required Section.orElse Section.entry?
  cases hat : ms.lookup k.field.toList with
  | none => cases k.unset? <;> simp [hat]
  | some v => cases k.unset? <;> simp [hat, toOption_eq_some]

section Reading

variable {root : Value} {b : Body}

theorem readServer_eq_ok (hbody : Section.server.body root = .ok b) (st : Settings) :
    readServer root = .ok st.server ↔
      ∀ k : Key, k.part = .server → k.readIn b = .ok (k.get st) := by
  obtain ⟨server, serve, logging⟩ := st
  simp only [readServer, hbody, bind_eq_ok, Except.ok.injEq, exists_eq_left']
  constructor
  · rintro ⟨host, hhost, port, hport, workers, hworkers, serverName, hserverName, rfl⟩ k hk
    cases k <;> cases hk
    · exact hhost
    · exact hport
    · exact hworkers
    · exact hserverName
  · intro hall
    exact ⟨_, hall .host rfl, _, hall .port rfl, _, hall .workers rfl, _, hall .serverName rfl, rfl⟩

theorem readServe_eq_ok (hbody : Section.serve.body root = .ok b) (st : Settings) :
    readServe root = .ok st.serve ↔
      ∀ k : Key, k.part = .serve → k.readIn b = .ok (k.get st) := by
  obtain ⟨server, serve, logging⟩ := st
  simp only [readServe, hbody, bind_eq_ok, Except.ok.injEq, exists_eq_left']
  constructor
  · rintro ⟨folder, hfolder, files, hfiles, listing, hlisting, rfl⟩ k hk
    cases k <;> cases hk
    · exact hfolder
    · exact hfiles
    · exact hlisting
  · intro hall
    exact ⟨_, hall .root rfl, _, hall .indexFiles rfl, _, hall .directoryListing rfl, rfl⟩

theorem readLogging_eq_ok (hbody : Section.logging.body root = .ok b) (st : Settings) :
    readLogging root = .ok st.logging ↔
      ∀ k : Key, k.part = .logging → k.readIn b = .ok (k.get st) := by
  obtain ⟨server, serve, logging⟩ := st
  simp only [readLogging, hbody, bind_eq_ok, Except.ok.injEq, exists_eq_left']
  constructor
  · rintro ⟨log, hlog, format, hformat, file, hfile, errors, herrors, rfl⟩ k hk
    cases k <;> cases hk
    · exact hlog
    · exact hformat
    · exact hfile
    · exact herrors
  · intro hall
    exact ⟨_, hall .accessLog rfl, _, hall .accessLogFormat rfl, _, hall .accessLogFile rfl, _,
      hall .errorLogFile rfl, rfl⟩

theorem ofValue_eq_ok_iff_parts (st : Settings) :
    ofValue root = .ok st ↔ readServer root = .ok st.server ∧ readServe root = .ok st.serve ∧
      readLogging root = .ok st.logging := by
  simp only [ofValue, bind_eq_ok, Except.ok.injEq]
  constructor
  · rintro ⟨server, hserver, serve, hserve, logging, hlogging, rfl⟩
    exact ⟨hserver, hserve, hlogging⟩
  · rintro ⟨hserver, hserve, hlogging⟩
    exact ⟨st.server, hserver, st.serve, hserve, st.logging, hlogging, rfl⟩

end Reading

/-- A raw value whose sections are tables. -/
def HasSections (root : Value) : Prop :=
  ∀ s : Section, ∃ w, root.member? s.key = some w ∧ w.IsTable

theorem HasSections.exists_body {root : Value} (h : HasSections root) (s : Section) :
    ∃ b, s.body root = .ok b ∧ ∀ k : Key, k.part = s → ∀ c : k.Content,
      k.readIn b = .ok c ↔ k.read? (k.of root) = some c := by
  obtain ⟨w, hw, htable⟩ := h s
  obtain ⟨ms, o, rfl⟩ := Value.isTable_iff.mp htable
  refine ⟨.byKey ms, by rw [Section.body, hw], ?_⟩
  rintro k rfl c
  rw [k.readIn_eq_ok, Key.of, Value.at?, hw]
  rfl

/-- **Settings are read key by key**: each from its own value, and all of them have to be read. -/
theorem ofValue_eq_ok {root : Value} (h : HasSections root) (st : Settings) :
    ofValue root = .ok st ↔ ∀ k : Key, k.read? (k.of root) = some (k.get st) := by
  obtain ⟨server, hserver, hserverKeys⟩ := h.exists_body .server
  obtain ⟨serve, hserve, hserveKeys⟩ := h.exists_body .serve
  obtain ⟨logging, hlogging, hloggingKeys⟩ := h.exists_body .logging
  rw [ofValue_eq_ok_iff_parts, readServer_eq_ok hserver, readServe_eq_ok hserve,
    readLogging_eq_ok hlogging]
  constructor
  · rintro ⟨hserverAll, hserveAll, hloggingAll⟩ k
    cases hpart : k.part with
    | server => exact (hserverKeys k hpart _).mp (hserverAll k hpart)
    | serve => exact (hserveKeys k hpart _).mp (hserveAll k hpart)
    | logging => exact (hloggingKeys k hpart _).mp (hloggingAll k hpart)
  · intro hall
    refine ⟨fun k hpart => ?_, fun k hpart => ?_, fun k hpart => ?_⟩
    · exact (hserverKeys k hpart _).mpr (hall k)
    · exact (hserveKeys k hpart _).mpr (hall k)
    · exact (hloggingKeys k hpart _).mpr (hall k)

/-- Some settings are read exactly if every key is. -/
theorem exists_ofValue_eq_ok {root : Value} (h : HasSections root) :
    (∃ st, ofValue root = .ok st) ↔ ∀ k : Key, ∃ c, k.read? (k.of root) = some c := by
  simp only [ofValue_eq_ok h]
  constructor
  · rintro ⟨st, hall⟩ k
    exact ⟨k.get st, hall k⟩
  · intro hall
    choose c hc using hall
    exact ⟨Key.settings c, fun k => by rw [Key.get_settings]; exact hc k⟩

end IsolatedSite.Settings
