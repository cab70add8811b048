/-
# Paths

A path is the octets that the file system is asked for, slashes included; nothing is normalised
when paths are put together.  Looking at a path's parts is another matter: repeated slashes and
`.` in the middle or at the end name nothing.
-/
import IsolatedSite.Text.Basic

namespace IsolatedSite

/-- A path as it is handed to the file system. -/
abbrev Path := Bytes

namespace Path

/-- The slash. -/
def slash : UInt8 := 47

/-- The dot. -/
def dot : UInt8 := 46

/-- A path that starts at the root. -/
def isAbsolute (p : Path) : Bool := p.head? == some slash

/-! ## 1. Putting paths together -/

/-- What has to stand between `p` and what follows it: a slash, unless `p` is empty or already
ends in one. -/
def gap (p : Path) : Bytes := if p = [] ∨ p.getLast? = some slash then [] else [slash]

/-- Goes on from `p` to `q`; an absolute `q` replaces `p`. -/
def join (p q : Path) : Path := if isAbsolute q then q else p ++ gap p ++ q

/-- Goes on from `p` along all of `qs`.  Joining is associative, so it may start at the end. -/
def joinAll (p : Path) : List Path → Path
  | [] => p
  | q :: qs => join p (joinAll q qs)

theorem gap_append {q : Path} (p : Path) (h : q ≠ []) : gap (p ++ q) = gap q := by
  simp [gap, h, List.getLast?_append, List.getLast?_eq_some_getLast h]

theorem gap_append_gap (p : Path) : gap (p ++ gap p) = [] := by
  by_cases h : p = [] ∨ p.getLast? = some slash <;> simp [gap, h]

theorem isAbsolute_append {p : Path} (q : Path) (h : p ≠ []) :
    isAbsolute (p ++ q) = isAbsolute p := by
  cases p with
  | nil => exact absurd rfl h
  | cons a p => rfl

theorem join_of_isAbsolute (p : Path) {q : Path} (h : isAbsolute q = true) : join p q = q := by
  simp [join, h]

theorem join_of_not_isAbsolute (p : Path) {q : Path} (h : isAbsolute q = false) :
    join p q = p ++ gap p ++ q := by
  simp [join, h]

theorem join_assoc (p q r : Path) : join (join p q) r = join p (join q r) := by
  cases hr : isAbsolute r with
  | true => simp [join_of_isAbsolute _ hr]
  | false =>
    rw [join_of_not_isAbsolute _ hr, join_of_not_isAbsolute q hr]
    by_cases hq : q = []
    · subst hq
      have ha : isAbsolute ([] ++ gap [] ++ r) = false := hr
      rw [join_of_not_isAbsolute p rfl, join_of_not_isAbsolute p ha, List.append_nil,
        gap_append_gap]
      simp [gap]
    · have ha : isAbsolute (q ++ gap q ++ r) = isAbsolute q := by
        rw [List.append_assoc, isAbsolute_append _ hq]
      cases h : isAbsolute q with
      | true => rw [join_of_isAbsolute _ h, join_of_isAbsolute _ (ha.trans h)]
      | false =>
        rw [join_of_not_isAbsolute _ h, join_of_not_isAbsolute _ (ha.trans h), gap_append _ hq]
        simp

/-! ## 2. The parts of a path -/

/-- A part of a path that means something. -/
inductive Component where
  | root
  | here
  | up
  | normal (name : Bytes)
  deriving DecidableEq, Repr

/-- The component that a piece between slashes names. -/
def component? (piece : Bytes) : Option Component :=
  if piece = [] ∨ piece = [dot] then none
  else if piece = [dot, dot] then some .up
  else some (.normal piece)

/-- The components of a path.  A `.` counts only as the first piece of a relative path. -/
def components (p : Path) : List Component :=
  let pieces := splitAtEach slash p
  (if isAbsolute p then [.root] else if pieces.head? = some [dot] then [.here] else []) ++
    pieces.filterMap component?

/-- The last component, if it is a name. -/
def fileName? (p : Path) : Option Bytes :=
  match (components p).getLast? with
  | some (.normal name) => some name
  | _ => none

/-- What follows the last dot of a name, unless the name's only dot is its first octet. -/
def extensionOfName? (name : Bytes) : Option Bytes :=
  if dot ∈ name.drop 1 then some (afterLast dot (name.drop 1)) else none

/-- The extension of a path's last component. -/
def extension? (p : Path) : Option Bytes := (fileName? p).bind extensionOfName?

/-- Whether `p` lies under `q` or is `q`, component by component. -/
def startsWith (p q : Path) : Bool := (components q).isPrefixOf (components p)

/-- The path that components spell. -/
def ofComponents (cs : List Component) : Path :=
  cs.foldl (fun p c => match c with
    | .root => [slash]
    | .here => join p [dot]
    | .up => join p [dot, dot]
    | .normal name => join p name) []

/-- The path without its last component; none for the root and the empty path. -/
def parent? (p : Path) : Option Path :=
  match (components p).reverse with
  | [] | .root :: _ => none
  | _ :: rest => some (ofComponents rest.reverse)

/-! ## 3. Other paths from a path -/

/-- The path up to the end of its last name, without what names nothing behind it. -/
def throughName (p : Path) : Path :=
  joinWith [slash]
    (trimEnd (fun piece => piece == [] || piece == [dot]) (splitAtEach slash p))

/-- The path with a dot and more behind its last name; none if it does not end in a name. -/
def withEnding? (p : Path) (ending : Bytes) : Option Path :=
  (fileName? p).map fun _ => throughName p ++ dot :: ending

/-- How components are reached from others: up to what both have in common, then down. -/
def stepsFrom : List Component → List Component → List Component
  | a :: as, b :: bs =>
    if a = b then stepsFrom as bs else List.replicate (bs.length + 1) .up ++ a :: as
  | as, bs => List.replicate bs.length .up ++ as

/-- The path as it is seen from another one, when both are absolute. -/
def seenFrom (p base : Path) : Path := ofComponents (stepsFrom (components p) (components base))

end Path

end IsolatedSite
