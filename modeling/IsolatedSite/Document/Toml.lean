/-
# TOML documents

Reading is done in two steps.  The first one cuts the text into statements: headers of tables,
headers of items of lists of tables, and pairs of a key and a value.  The second one builds the
document, which is where a key that is given twice or a table that is reopened is refused.
-/
import IsolatedSite.Document.Toml.Scalar

namespace IsolatedSite.Document.Toml

/-! ## 1. Building -/

/-- How a table came to be. -/
inductive Made where
  /-- By its own header. -/
  | header
  /-- By the header of a table in it. -/
  | implied
  /-- By a key with dots. -/
  | dotted
  deriving DecidableEq, Repr

/-- A part of a document that is being built. -/
inductive Node where
  | value (d : Document)
  | table (made : Made) (members : List (Text × Node))
  | tables (items : List (List (Text × Node)))

/-- The members of a table that is being built. -/
abbrev Members := List (Text × Node)

/-- Changes the members at the end of a path, making the tables that are missing on the way.  A
path that comes from a key with dots may not enter tables that have headers. -/
def within (dotted : Bool) (change : Members → Option Members) :
    List Text → Members → Option Members
  | [], ms => change ms
  | key :: path, ms =>
    match ms.lookup key with
    | none => (within dotted change path []).map fun inner =>
        putMember key (.table (if dotted then .dotted else .implied) inner) ms
    | some (.table made inner) =>
      if dotted ∧ made = .header then none
      else (within dotted change path inner).map fun inner => putMember key (.table made inner) ms
    | some (.tables items) =>
      if dotted then none
      else (within dotted change path (items.getLast?.getD [])).map fun inner =>
        putMember key (.tables (items.dropLast ++ [inner])) ms
    | some (.value _) => none

/-- Opens the table of a header: a new one, or one that is only implied so far. -/
def openTable (key : Text) (ms : Members) : Option Members :=
  match ms.lookup key with
  | none => some (putMember key (.table .header []) ms)
  | some (.table .implied inner) => some (putMember key (.table .header inner) ms)
  | _ => none

/-- Adds an item to a list of tables. -/
def openItem (key : Text) (ms : Members) : Option Members :=
  match ms.lookup key with
  | none => some (putMember key (.tables [[]]) ms)
  | some (.tables items) => some (putMember key (.tables (items ++ [[]])) ms)
  | _ => none

/-- Adds a value. -/
def addValue (d : Document) (key : Text) (ms : Members) : Option Members :=
  match ms.lookup key with
  | none => some (putMember key (.value d) ms)
  | some _ => none

/-- Lets an action work on the last key of a path, in the table of the others. -/
def atLast (dotted : Bool) (action : Text → Members → Option Members) (path : List Text)
    (ms : Members) : Option Members :=
  path.getLast?.bind fun key => within dotted (action key) path.dropLast ms

mutual

/-- The document that a part became. -/
def Node.document : Node → Document
  | .value d => d
  | .table _ ms => .table (documentMembers ms)
  | .tables items => .list (documentTables items)

/-- The members that a table became. -/
def documentMembers : List (Text × Node) → List (Text × Document)
  | [] => []
  | (key, n) :: ms => (key, n.document) :: documentMembers ms

/-- The items that a list of tables became. -/
def documentTables : List (List (Text × Node)) → List Document
  | [] => []
  | ms :: items => .table (documentMembers ms) :: documentTables items

end

/-- The table that pairs make, if their keys agree. -/
def tableOf? (pairs : List (List Text × Document)) : Option Document :=
  (pairs.foldlM (fun ms p => atLast true (addValue p.2) p.1 ms) []).map fun ms =>
    .table (documentMembers ms)

/-! ## 2. Keys and values -/

/-- A character of a key without quotes. -/
def isBareChar (c : Char) : Bool := c.isAlphanum || c == '_' || c == '-'

/-- One part of a key. -/
def keyPart? (t : Text) : Option (Text × Text) :=
  match t with
  | '"' :: t => line? '"' (t.length + 1) t
  | '\'' :: t => line? '\'' (t.length + 1) t
  | t =>
    let bare := t.takeWhile isBareChar
    if bare = [] then none else some (bare, t.drop bare.length)

/-- A key: parts with dots between them. -/
def key? : (fuel : Nat) → Text → Option (List Text × Text)
  | 0, _ => none
  | fuel + 1, t => do
    let (part, t) ← keyPart? (t.dropWhile isBlank)
    match t.dropWhile isBlank with
    | '.' :: t => (key? fuel t).map fun p => (part :: p.1, p.2)
    | t => some ([part], t)

/-- The text behind blanks, line ends and comments. -/
def skipLines : (fuel : Nat) → Text → Text
  | 0, t => t
  | fuel + 1, t =>
    let t := skipComment (t.dropWhile isBlank)
    match newline? t with
    | some t => skipLines fuel t
    | none => t

/-- How deep lists and tables may be nested inside a value. -/
def maxDepth : Nat := 79

mutual

/-- A value and the text behind it. -/
def value? (depth : Nat) : (fuel : Nat) → Text → Option (Document × Text)
  | 0, _ => none
  | fuel + 1, t => match t with
    | '"' :: _ | '\'' :: _ => (string? t).map fun p => (.text p.1, p.2)
    | '[' :: t =>
      if depth = 0 then none
      else (items? (depth - 1) fuel t).map fun p => (.list p.1, p.2)
    | '\x7b' :: t =>
      if depth = 0 then none
      else match t.dropWhile isBlank with
        | '\x7d' :: t => some (.table [], t)
        | t => do
          let (pairs, t) ← pairs? (depth - 1) fuel t
          let d ← tableOf? pairs
          some (d, t)
    | t =>
      let (token, rest) := token t
      (scalar? token).map fun d => (d, rest)

/-- The items of a list up to its closing bracket; a comma may stand behind the last one. -/
def items? (depth : Nat) : (fuel : Nat) → Text → Option (List Document × Text)
  | 0, _ => none
  | fuel + 1, t => match skipLines (t.length + 1) t with
    | ']' :: t => some ([], t)
    | t => do
      let (d, t) ← value? depth fuel t
      match skipLines (t.length + 1) t with
      | ',' :: t => (items? depth fuel t).map fun p => (d :: p.1, p.2)
      | ']' :: t => some ([d], t)
      | _ => none

/-- The pairs of a table in braces up to the closing one. -/
def pairs? (depth : Nat) : (fuel : Nat) → Text → Option (List (List Text × Document) × Text)
  | 0, _ => none
  | fuel + 1, t => do
    let (key, t) ← key? (t.length + 1) t
    match t with
    | '=' :: t => do
      let (d, t) ← value? depth fuel (t.dropWhile isBlank)
      match t.dropWhile isBlank with
      | ',' :: t => (pairs? depth fuel t).map fun p => ((key, d) :: p.1, p.2)
      | '\x7d' :: t => some ([(key, d)], t)
      | _ => none
    | _ => none

end

/-! ## 3. Statements -/

/-- What a line says. -/
inductive Statement where
  | table (path : List Text)
  | item (path : List Text)
  | pair (path : List Text) (d : Document)

/-- A statement and the text behind it. -/
def statement? (t : Text) : Option (Statement × Text) := do
  match t with
  | '[' :: '[' :: t => do
    let (path, t) ← key? (t.length + 1) t
    match t with
    | ']' :: ']' :: t => some (.item path, t)
    | _ => none
  | '[' :: t => do
    let (path, t) ← key? (t.length + 1) t
    match t with
    | ']' :: t => some (.table path, t)
    | _ => none
  | t => do
    let (path, t) ← key? (t.length + 1) t
    match t with
    | '=' :: t => do
      let (d, t) ← value? maxDepth (2 * t.length + 2) (t.dropWhile isBlank)
      some (.pair path d, t)
    | _ => none

/-- The statements of a text, one a line; every line but the last takes at least its end. -/
def statements? : (fuel : Nat) → Text → Option (List Statement)
  | 0, _ => none
  | fuel + 1, t =>
    match t.dropWhile isBlank with
    | [] => some []
    | c :: t => do
      let bare := c = '#' ∨ (newline? (c :: t)).isSome
      let (found, t) ← if bare then some (none, c :: t)
        else (statement? (c :: t)).map fun p => (some p.1, p.2)
      let t := skipComment (t.dropWhile isBlank)
      match t, newline? t with
      | [], _ => some found.toList
      | _, some t => (statements? fuel t).map fun more => found.toList ++ more
      | _, none => none

/-- What stands in the document so far, and the path of the table that pairs go to. -/
structure Building where
  members : Members
  current : List Text

/-- Carries out a statement. -/
def Building.add? (b : Building) : Statement → Option Building
  | .table path => (atLast false openTable path b.members).map fun ms => ⟨ms, path⟩
  | .item path => (atLast false openItem path b.members).map fun ms => ⟨ms, path⟩
  | .pair path d =>
    (within false (atLast true (addValue d) path) b.current b.members).map fun ms =>
      { b with members := ms }

/-- A text without the mark that shows the order of octets. -/
def withoutMark : Text → Text
  | c :: t => if c.toNat = 0xFEFF then t else c :: t
  | [] => []

/-- The document that a text spells: always a table. -/
def read? (t : Text) : Option Document := do
  let t := withoutMark t
  let found ← statements? (t.length + 1) t
  let b ← found.foldlM Building.add? ⟨[], []⟩
  some (.table (documentMembers b.members))

end IsolatedSite.Document.Toml
