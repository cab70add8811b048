/-
# Header fields

An ordered list of names and values in which the values of one name stand together: a name keeps
the place at which it came first, a further value goes behind the earlier ones, and `set` leaves
one value at that place.  Names are in lower case.
-/
import IsolatedSite.Http.Token

namespace IsolatedSite.Http

/-- A field: its lower-case name and its value. -/
abbrev Field := Bytes × Bytes

/-- The fields of a message, in order. -/
abbrev Fields := List Field

namespace Fields

/-- The names in order, repeated as often as they have values. -/
def names (fs : Fields) : List Bytes := fs.map (·.1)

/-- The values of a name. -/
def valuesOf (name : Bytes) (fs : Fields) : List Bytes :=
  (fs.filter fun f => f.1 = name).map (·.2)

/-- The first value of a name. -/
def first? (name : Bytes) (fs : Fields) : Option Bytes := fs.lookup name

/-- Whether a name has a value. -/
def has (name : Bytes) (fs : Fields) : Bool := (names fs).contains name

/-- The first value of a name, if it is plain text. -/
def firstText? (name : Bytes) (fs : Fields) : Option Text := (first? name fs).bind visibleText?

/-- Adds a value behind the others of its name, or at the end. -/
def add (name value : Bytes) : Fields → Fields
  | [] => [(name, value)]
  | f :: fs =>
    if f.1 = name ∧ ¬ has name fs then f :: (name, value) :: fs else f :: add name value fs

/-- Makes a value the only one of its name, at the name's place or at the end. -/
def set (name value : Bytes) : Fields → Fields
  | [] => [(name, value)]
  | f :: fs =>
    if f.1 = name then (name, value) :: fs.filter (fun g => g.1 ≠ name)
    else f :: set name value fs

/-- Why a list of names and values is no header. -/
inductive Fault where
  | badName
  | badValue
  deriving DecidableEq, Repr

/-- Adds names and values in order; the first bad pair decides, its name before its value. -/
def ofPairs? (pairs : List (Bytes × Bytes)) (start : Fields) : Except Fault Fields :=
  pairs.foldlM (fun fs p =>
    if ¬ isToken p.1 then .error .badName
    else if ¬ p.2.all isValueByte then .error .badValue
    else .ok (add (p.1.map Byte.toLower) p.2 fs)) start

end Fields

end IsolatedSite.Http
