/-
# File trees

A tree is a list of nodes with their locations, a location being the names on the way down from
the root.  A path is followed step by step from a location: folders on the way have to let the
caller search them, and a symbolic link is replaced by its target, at most forty times.  All
questions about a path (`stat`, `canonical`, `read`, `list`) go through the same `locate`, so
they agree on what a path names.
-/
import IsolatedSite.Calendar.Instant
import IsolatedSite.Files.OsError
import IsolatedSite.Path

namespace IsolatedSite.Files

/-! ## 1. Nodes -/

/-- The names on the way from the root to a node. -/
abbrev Location := List Bytes

/-- A file, folder or symbolic link.  Everything belongs to the administrator, so of the
permission bits only those for others matter. -/
inductive Node where
  | file (content : Bytes) (modified : Calendar.Instant) (mode : Nat)
  | folder (mode : Nat)
  | link (target : Path)
  deriving DecidableEq, Repr

/-- A tree of files. -/
structure Tree where
  nodes : List (Location × Node)
  deriving DecidableEq, Repr

/-- Who asks: the administrator, whom permission bits do not stop, or anyone else. -/
inductive Caller where
  | administrator
  | other
  deriving DecidableEq, Repr

/-- A right that permission bits grant to others. -/
inductive Right where
  | read
  | write
  | search
  deriving DecidableEq, Repr

/-- The bit of a right. -/
def Right.bit : Right → Nat
  | .read => 4
  | .write => 2
  | .search => 1

/-- Whether a caller has a right under given permission bits. -/
def Caller.may (who : Caller) (r : Right) (mode : Nat) : Bool :=
  match who with
  | .administrator => true
  | .other => mode / r.bit % 2 == 1

namespace Tree

/-- The permission bits of a root that the tree does not list. -/
def rootMode : Nat := 0o755

/-- The node at a location. -/
def find? (t : Tree) (l : Location) : Option Node :=
  match t.nodes.lookup l with
  | some n => some n
  | none => if l = [] then some (.folder rootMode) else none

/-- The names in a folder. -/
def namesIn (t : Tree) (l : Location) : List Bytes :=
  t.nodes.filterMap fun n =>
    match n.1.reverse with
    | [] => none
    | name :: above => if above.reverse = l then some name else none

/-! ## 2. Following a path -/

/-- One step of a path. -/
inductive Step where
  | here
  | up
  | into (name : Bytes)
  /-- Goes nowhere, but only from a folder: a slash at the end of a path. -/
  | folderOnly
  deriving DecidableEq, Repr

/-- The step that a piece between slashes asks for. -/
def stepOf (piece : Bytes) : Step :=
  if piece = [Path.dot] then .here
  else if piece = [Path.dot, Path.dot] then .up else .into piece

/-- The steps of a path, apart from where it starts. -/
def stepsOf (p : Path) : List Step :=
  (((splitAtEach Path.slash p).filter fun x => x ≠ []).map stepOf) ++
    (if p.getLast? = some Path.slash then [.folderOnly] else [])

/-- The longest name that a folder can hold. -/
def maxName : Nat := 255

/-- The longest path that the operating system takes. -/
def maxPath : Nat := 4095

/-- The most links that are followed for one path. -/
def maxLinks : Nat := 40

/-- Where following steps without links ends. -/
inductive Stop where
  /-- At a node that is no link. -/
  | found (l : Location)
  /-- At a name that its folder does not hold; nothing was to follow it. -/
  | vacant (l : Location)
  /-- At a link in folder `l`, with steps still to go. -/
  | link (l : Location) (target : Path) (rest : List Step)
  deriving DecidableEq, Repr

/-- Follows steps from a location up to their end or the first link. -/
def descend (t : Tree) (who : Caller) : Location → List Step → Except OsError Stop
  | l, [] => .ok (.found l)
  | l, s :: rest =>
    match t.find? l with
    | some (.folder mode) =>
      if s = .folderOnly then descend t who l rest
      else if ¬ who.may .search mode then .error .permissionDenied
      else match s with
        | .here | .folderOnly => descend t who l rest
        | .up => descend t who l.dropLast rest
        | .into name =>
          if maxName < name.length then .error .nameTooLong
          else match t.find? (l ++ [name]) with
            | some (.link target) => .ok (.link l target rest)
            | some _ => descend t who (l ++ [name]) rest
            | none => if rest = [] then .ok (.vacant (l ++ [name])) else .error .notFound
    | some _ => .error .notADirectory
    | none => .error .notFound

/-- What a path names: a node that is there, or a place in a folder where none is yet. -/
inductive Place where
  | found (l : Location)
  | vacant (l : Location)
  deriving DecidableEq, Repr

/-- Follows steps through at most `links` links. -/
def resolve (t : Tree) (who : Caller) :
    (links : Nat) → Location → List Step → Except OsError Place
  | links, l, steps =>
    match descend t who l steps with
    | .error e => .error e
    | .ok (.found l) => .ok (.found l)
    | .ok (.vacant l) => .ok (.vacant l)
    | .ok (.link l target rest) =>
      match links with
      | 0 => .error .tooManyLinks
      | links + 1 =>
        resolve t who links (if Path.isAbsolute target then [] else l) (stepsOf target ++ rest)

/-- The place that a path names, seen from a working directory. -/
def place (t : Tree) (who : Caller) (cwd : Location) (p : Path) : Except OsError Place :=
  if (0 : UInt8) ∈ p then .error .nulInPath
  else if p = [] then .error .notFound
  else if maxPath < p.length then .error .nameTooLong
  else resolve t who maxLinks (if Path.isAbsolute p then [] else cwd) (stepsOf p)

/-- The location of the node that a path names. -/
def locate (t : Tree) (who : Caller) (cwd : Location) (p : Path) : Except OsError Location :=
  match t.place who cwd p with
  | .ok (.found l) => .ok l
  | .ok (.vacant _) => .error .notFound
  | .error e => .error e

/-! ## 3. Questions -/

/-- The path that spells a location. -/
def pathOf (l : Location) : Path :=
  if l = [] then [Path.slash] else l.flatMap fun name => Path.slash :: name

/-- The node that a path names, links followed. -/
def stat (t : Tree) (who : Caller) (cwd : Location) (p : Path) : Except OsError Node :=
  match t.locate who cwd p with
  | .error e => .error e
  | .ok l => match t.find? l with
    | some n => .ok n
    | none => .error .notFound

/-- Whether a path names a folder, as far as the caller can tell. -/
def isFolder (t : Tree) (who : Caller) (cwd : Location) (p : Path) : Bool :=
  match t.stat who cwd p with
  | .ok (.folder _) => true
  | _ => false

/-- Whether a path names a regular file, as far as the caller can tell. -/
def isFile (t : Tree) (who : Caller) (cwd : Location) (p : Path) : Bool :=
  match t.stat who cwd p with
  | .ok (.file ..) => true
  | _ => false

/-- The absolute path of what a path names, without links. -/
def canonical (t : Tree) (who : Caller) (cwd : Location) (p : Path) : Except OsError Path :=
  (t.locate who cwd p).map pathOf

/-- The content of the file that a path names. -/
def read (t : Tree) (who : Caller) (cwd : Location) (p : Path) : Except OsError Bytes :=
  match t.stat who cwd p with
  | .error e => .error e
  | .ok (.file content _ mode) =>
    if who.may .read mode then .ok content else .error .permissionDenied
  | .ok (.folder mode) =>
    if who.may .read mode then .error .isADirectory else .error .permissionDenied
  | .ok (.link _) => .error .tooManyLinks

/-- The names in the folder that a path names. -/
def list (t : Tree) (who : Caller) (cwd : Location) (p : Path) :
    Except OsError (List (Bytes × Bool)) :=
  match t.locate who cwd p with
  | .error e => .error e
  | .ok l => match t.find? l with
    | some (.folder mode) =>
      if who.may .read mode then
        .ok ((t.namesIn l).map fun name => (name, isLinkAt (l ++ [name])))
      else .error .permissionDenied
    | _ => .error .notADirectory
where
  /-- Whether a link stands at a location. -/
  isLinkAt (l : Location) : Bool :=
    match t.find? l with
    | some (.link _) => true
    | _ => false

end Tree

end IsolatedSite.Files
