/-
# Changing a file tree

The operations that build a tree and alter it.  Each one names the node that it works on by a
path and gives the new tree or the reason why nothing was changed.
-/
import IsolatedSite.Files.Tree

namespace IsolatedSite.Files

/-- An operation on a tree. -/
inductive Change where
  /-- Writes a file with a modification time, creating the folders above it. -/
  | write (path : Path) (content : Bytes) (modified : Calendar.Instant)
  /-- Makes a folder and those above it. -/
  | makeFolder (path : Path)
  | link (path target : Path)
  | touch (path : Path) (modified : Calendar.Instant)
  | rename (path goal : Path)
  /-- Removes a file, a link, or a folder with all that is in it. -/
  | remove (path : Path)
  | setMode (path : Path) (mode : Nat)
  deriving DecidableEq, Repr

/-- The permission bits of new files and folders. -/
structure NewModes where
  file : Nat := 0o644
  folder : Nat := 0o755
  deriving DecidableEq, Repr

namespace Tree

/-! ## 1. Nodes -/

/-- Puts a node at a location; the last one put there counts. -/
def put (t : Tree) (l : Location) (n : Node) : Tree :=
  ⟨(t.nodes.filter fun m => m.1 ≠ l) ++ [(l, n)]⟩

/-- Whether `l` is at or under `top`. -/
def isUnder (top l : Location) : Bool := top.isPrefixOf l

/-- Drops a node and all that is under it. -/
def drop (t : Tree) (l : Location) : Tree := ⟨t.nodes.filter fun m => ¬ isUnder l m.1⟩

/-- Moves a node and all that is under it. -/
def move (t : Tree) (l goal : Location) : Tree :=
  ⟨t.nodes.map fun m => if isUnder l m.1 then (goal ++ m.1.drop l.length, m.2) else m⟩

/-- Whether a caller may add names to a folder, or take them away. -/
def mayChange (t : Tree) (who : Caller) (folder : Location) : Bool :=
  match t.find? folder with
  | some (.folder mode) => who.may .write mode && who.may .search mode
  | _ => false

/-! ## 2. Places -/

/-- A path without slashes at its end. -/
def trimmed (p : Path) : Path :=
  let q := trimEnd (· == Path.slash) p
  if q = [] ∧ p ≠ [] then [Path.slash] else q

/-- The location that a path's last name has in its folder, a link there not being followed. -/
def nameSlot (t : Tree) (who : Caller) (cwd : Location) (p : Path) : Except OsError Location :=
  match (stepsOf (trimmed p)).reverse with
  | .into name :: above =>
    if (0 : UInt8) ∈ p then .error .nulInPath
    else match resolve t who maxLinks (if Path.isAbsolute p then [] else cwd) above.reverse with
      | .error e => .error e
      | .ok (.vacant _) => .error .notFound
      | .ok (.found l) => match t.find? l with
        | some (.folder mode) =>
          if ¬ who.may .search mode then .error .permissionDenied
          else if maxName < name.length then .error .nameTooLong
          else .ok (l ++ [name])
        | _ => .error .notADirectory
  | _ => .error .alreadyExists

/-! ## 3. Making nodes -/

/-- Makes one folder, unless the path names one. -/
def makeFolder (t : Tree) (who : Caller) (modes : NewModes) (cwd : Location) (p : Path) :
    Except OsError Tree :=
  match t.place who cwd (trimmed p) with
  | .error e => .error e
  | .ok (.found l) => match t.find? l with
    | some (.folder _) => .ok t
    | _ => .error .alreadyExists
  | .ok (.vacant l) =>
    if t.mayChange who l.dropLast then .ok (t.put l (.folder modes.folder))
    else .error .permissionDenied

/-- The paths of the folders above and at a path, from the top. -/
def heads (p : Path) : List Path :=
  let pieces := (splitAtEach Path.slash p).filter fun x => x ≠ []
  (List.range pieces.length).map fun i =>
    (if Path.isAbsolute p then [Path.slash] else []) ++
      joinWith [Path.slash] (pieces.take (i + 1))

/-- Makes the first folder of a chain, each of which stands in the one behind it.  The others are
made first if it has no place to stand in. -/
def makeChain (t : Tree) (who : Caller) (modes : NewModes) (cwd : Location) :
    List Path → Except OsError Tree
  | [] => .ok t
  | p :: above =>
    match t.makeFolder who modes cwd p with
    | .error .notFound =>
      if above = [] then .error .notFound
      else do
        let t ← makeChain t who modes cwd above
        t.makeFolder who modes cwd p
    | made => made

/-- Makes a folder and those above it. -/
def makeFolders (t : Tree) (who : Caller) (modes : NewModes) (cwd : Location) (p : Path) :
    Except OsError Tree :=
  if (0 : UInt8) ∈ p then .error .nulInPath
  else t.makeChain who modes cwd (heads p).reverse

/-- Writes what `change` makes of the content of a file, which is empty if there is no file. -/
def edit (t : Tree) (who : Caller) (modes : NewModes) (cwd : Location) (p : Path)
    (change : Bytes → Bytes) (modified : Calendar.Instant) : Except OsError Tree :=
  match t.place who cwd p with
  | .error e => .error e
  | .ok (.vacant l) =>
    if t.mayChange who l.dropLast then .ok (t.put l (.file (change []) modified modes.file))
    else .error .permissionDenied
  | .ok (.found l) => match t.find? l with
    | some (.file content _ mode) =>
      if who.may .write mode then .ok (t.put l (.file (change content) modified mode))
      else .error .permissionDenied
    | some (.folder _) => .error .isADirectory
    | _ => .error .notFound

/-- Makes the folders above a path, if it has any. -/
def makeAbove (t : Tree) (who : Caller) (modes : NewModes) (cwd : Location) (p : Path) :
    Except OsError Tree :=
  match Path.parent? p with
  | some q => if q = [] then .ok t else t.makeFolders who modes cwd q
  | none => .ok t

/-- Puts a link at a name that is free. -/
def makeLink (t : Tree) (who : Caller) (cwd : Location) (p target : Path) : Except OsError Tree :=
  match t.nameSlot who cwd p with
  | .error e => .error e
  | .ok l =>
    if (t.find? l).isSome then .error .alreadyExists
    else if t.mayChange who l.dropLast then .ok (t.put l (.link target))
    else .error .permissionDenied

/-! ## 4. Altering nodes -/

/-- Sets the modification time of a file. -/
def touch (t : Tree) (who : Caller) (cwd : Location) (p : Path) (modified : Calendar.Instant) :
    Except OsError Tree :=
  match t.locate who cwd p with
  | .error e => .error e
  | .ok l => match t.find? l with
    | some (.file content _ mode) =>
      if who.may .write mode then .ok (t.put l (.file content modified mode))
      else .error .permissionDenied
    | _ => .ok t

/-- Sets the permission bits of what a path names, which only the administrator may do. -/
def setMode (t : Tree) (who : Caller) (cwd : Location) (p : Path) (mode : Nat) :
    Except OsError Tree :=
  match t.locate who cwd p with
  | .error e => .error e
  | .ok l =>
    if who ≠ .administrator then .error .permissionDenied
    else match t.find? l with
      | some (.file content modified _) => .ok (t.put l (.file content modified mode))
      | some (.folder _) => .ok (t.put l (.folder mode))
      | _ => .ok t

/-- Removes a name with all that is under it. -/
def remove (t : Tree) (who : Caller) (cwd : Location) (p : Path) : Except OsError Tree :=
  match t.nameSlot who cwd p with
  | .error e => .error e
  | .ok l =>
    if (t.find? l).isNone then .error .notFound
    else if t.mayChange who l.dropLast then .ok (t.drop l)
    else .error .permissionDenied

/-- Whether one node may take the place of another. -/
def mayReplace (t : Tree) (l : Location) : Node → Node → Except OsError Unit
  | .folder _, .folder _ => if (t.namesIn l).isEmpty then .ok () else .error .notEmpty
  | .folder _, _ => .error .notADirectory
  | _, .folder _ => .error .isADirectory
  | _, _ => .ok ()

/-- Moves a name, over another one if that can be replaced. -/
def rename (t : Tree) (who : Caller) (cwd : Location) (p goal : Path) : Except OsError Tree := do
  let l ← t.nameSlot who cwd p
  let m ← t.nameSlot who cwd goal
  match t.find? l with
  | none => .error .notFound
  | some n =>
    if ¬ (t.mayChange who l.dropLast ∧ t.mayChange who m.dropLast) then .error .permissionDenied
    else if l = m then .ok t
    else match t.find? m with
      | none => .ok (t.move l m)
      | some old => do
        t.mayReplace m n old
        .ok ((t.drop m).move l m)

/-! ## 5. All operations -/

/-- Carries out an operation. -/
def apply (t : Tree) (who : Caller) (modes : NewModes) (cwd : Location) :
    Change → Except OsError Tree
  | .write p content modified => do
    let t ← t.makeAbove who modes cwd p
    t.edit who modes cwd p (fun _ => content) modified
  | .makeFolder p => t.makeFolders who modes cwd p
  | .link p target => do
    let t ← t.makeAbove who modes cwd p
    t.makeLink who cwd p target
  | .touch p modified => t.touch who cwd p modified
  | .rename p goal => do
    let t ← t.makeAbove who modes cwd goal
    t.rename who cwd p goal
  | .remove p => t.remove who cwd p
  | .setMode p mode => t.setMode who cwd p mode

end Tree

end IsolatedSite.Files
