/-
# What YAML nodes stand for

Plain scalars are null, truth values or numbers if they look like one, and texts otherwise; scalars
in quotes are always texts.  A tag of the core schema says what a plain scalar is, and one that it
does not fit stands for nothing.  An alias stands for what the last anchor of its name stands for,
and for nothing inside the node that has the anchor.
-/
import IsolatedSite.Document.Basic
import IsolatedSite.Document.Yaml.Node
import IsolatedSite.Number.Reading

namespace IsolatedSite.Document.Yaml

/-! ## 1. Scalars -/

/-- A scalar as it is understood. -/
inductive Scalar where
  /-- A scalar that does not fit its tag. -/
  | misfit
  | null
  | bool (b : Bool)
  | int (n : Int)
  /-- A number with a fraction, as it is written. -/
  | real (t : Text)
  | text (t : Text)
  deriving DecidableEq, Repr

namespace Scalar

/-- A whole number of 64 bits whose digits, in a given base, stand behind an optional sign. -/
def based? (isDigit : Char → Bool) (value : Text → Nat) (t : Text) : Option Int :=
  let (isNegative, digits) := Number.signed t
  let n : Int := if isNegative then -(value digits : Int) else value digits
  if digits ≠ [] ∧ digits.all isDigit ∧ isInt64 n then some n else none

/-- A whole number of 64 bits, in one of three bases; a plus sign may stand in front of the sign of
a decimal one. -/
def int? (t : Text) : Option Int :=
  match t with
  | '0' :: 'x' :: t => based? Hex.isDigit Hex.value t
  | '0' :: 'o' :: t => based? (fun c => '0' ≤ c && c ≤ '7') (fun t => Nat.ofDigitChars 8 t 0) t
  | '+' :: rest => (Decimal.signed64? rest).or (Decimal.signed64? t)
  | t => Decimal.signed64? t

/-- The names of infinity and of what is no number. -/
def realNames : List Text :=
  [".inf", ".Inf", ".INF", "+.inf", "+.Inf", "+.INF", "-.inf", "-.Inf", "-.INF", ".nan", ".NaN",
    ".NAN"].map String.toList

/-- Whether a text is taken for a number with a fraction. -/
def isReal (t : Text) : Bool :=
  realNames.contains t || (t.any Char.isDigit && (Number.Binary64.read? t).isSome)

/-- A plain scalar without a tag. -/
def ofPlain (t : Text) : Scalar :=
  if t = ['~'] ∨ t = "null".toList then .null
  else if t = "true".toList then .bool true
  else if t = "false".toList then .bool false
  else match int? t with
    | some n => .int n
    | none => if isReal t then .real t else .text t

/-- What all tags of the core schema begin with. -/
def core : Text := "tag:yaml.org,2002:".toList

/-- A plain scalar with a tag of the core schema; `kind` is what follows there. -/
def ofKind (kind t : Text) : Scalar :=
  if kind = "bool".toList then
    if t = "true".toList then .bool true
    else if t = "false".toList then .bool false else .misfit
  else if kind = "int".toList then ((Decimal.signed64? t).map .int).getD .misfit
  else if kind = "float".toList then if isReal t then .real t else .misfit
  else if kind = "null".toList then
    if t = ['~'] ∨ t = "null".toList then .null else .misfit
  else .text t

/-- A plain scalar behind a tag, if it has one; other tags than those of the core schema make a
text of it. -/
def ofTagged (tag : Option Tag) (t : Text) : Scalar :=
  match tag with
  | none => ofPlain t
  | some tag => if tag.handle = core then ofKind tag.suffix t else .text t

/-- The document that a scalar is; none for a number that has a name only. -/
def document? : Scalar → Option Document
  | .misfit | .null => some .null
  | .bool b => some (.bool b)
  | .int n => some (.int n)
  | .real t => (Number.Binary64.read? t).map .float
  | .text t => some (.text t)

/-- The key that a scalar is, written out. -/
def key? : Scalar → Option Text
  | .misfit | .null => none
  | .bool b => some (if b then "true".toList else "false".toList)
  | .int n => some (Decimal.ofInt n)
  | .real t | .text t => some t

end Scalar

/-! ## 2. Lists and tables -/

/-- What a node stands for. -/
inductive Datum where
  | scalar (s : Scalar)
  | list (items : List Datum)
  | table (members : List (Scalar × Datum))

/-- The members that keys and values in turn make, behind those that were read; `key` waits for its
value.  What stands for nothing is no key, and no key stands in a table twice. -/
def members? : (key : Option Scalar) → List (Scalar × Datum) → List Datum →
    Option (List (Scalar × Datum))
  | _, read, [] => some read
  | none, read, .scalar .misfit :: ds => members? none read ds
  | none, read, .scalar s :: ds => members? (some s) read ds
  | none, _, _ :: _ => none
  | some key, read, d :: ds =>
    if (read.lookup key).isSome then none else members? none (read ++ [(key, d)]) ds

mutual

/-- The document that a datum is. -/
def Datum.document? : Datum → Option Document
  | .scalar s => s.document?
  | .list ds => (itemDocuments? ds).map .list
  | .table ms => (memberDocuments? ms).map .table

/-- The documents that the items of a list are. -/
def itemDocuments? : List Datum → Option (List Document)
  | [] => some []
  | d :: ds => do
    let e ← d.document?
    let es ← itemDocuments? ds
    some (e :: es)

/-- The members of a table with their keys written out; of two that are written alike the later one
counts. -/
def memberDocuments? : List (Scalar × Datum) → Option (List (Text × Document))
  | [] => some []
  | (key, d) :: ms => do
    let k ← key.key?
    let e ← d.document?
    let es ← memberDocuments? ms
    some (if (es.lookup k).isSome then es else (k, e) :: es)

end

/-! ## 3. Following aliases -/

/-- What was read in front of a node: what handles of tags stand for, the anchors with their
numbers, the last one first, and what the anchors stand for whose nodes are complete. -/
structure Surroundings where
  prefixes : List (Text × Text)
  numbers : List (Text × Nat)
  data : List (Nat × Datum)

namespace Surroundings

/-- A tag with what its handle stands for. -/
def resolve? (a : Surroundings) (tag : Tag) : Option Tag :=
  match a.prefixes.lookup tag.handle with
  | some start => some { tag with handle := start }
  | none =>
    if tag.handle = "!!".toList then some { tag with handle := Scalar.core }
    else if 2 ≤ tag.handle.length then none
    else some tag

/-- The tag of a node, if it has one. -/
def tagOf? (a : Surroundings) (p : Properties) : Option (Option Tag) :=
  match p.tag with
  | none => some none
  | some tag => (a.resolve? tag).map some

/-- The anchors in front of the content of a node. -/
def entered (a : Surroundings) (p : Properties) : Surroundings :=
  match p.anchor with
  | some name => { a with numbers := (name, a.numbers.length) :: a.numbers }
  | none => a

/-- The anchors behind a node that had `number` of them in front of it. -/
def left (a : Surroundings) (p : Properties) (number : Nat) (d : Datum) : Surroundings :=
  if p.anchor.isSome then { a with data := (number, d) :: a.data } else a

end Surroundings

mutual

/-- What a node stands for, and the anchors behind it. -/
def Node.load? (a : Surroundings) : Node → Option (Datum × Surroundings)
  | .nothing => some (.scalar .null, a)
  | .alias name => do
    let number ← a.numbers.lookup name
    some ((a.data.lookup number).getD (.scalar .misfit), a)
  | .scalar p isPlain t => do
    let tag ← a.tagOf? p
    let d := Datum.scalar (if isPlain then .ofTagged tag t else .text t)
    some (d, (a.entered p).left p a.numbers.length d)
  | .list p items => do
    let _ ← a.tagOf? p
    let (ds, b) ← loadAll? (a.entered p) items
    some (.list ds, b.left p a.numbers.length (.list ds))
  | .table p parts => do
    let _ ← a.tagOf? p
    let (ds, b) ← loadAll? (a.entered p) parts
    let ms ← members? none [] ds
    some (.table ms, b.left p a.numbers.length (.table ms))

/-- What nodes stand for, one after the other. -/
def loadAll? (a : Surroundings) : List Node → Option (List Datum × Surroundings)
  | [] => some ([], a)
  | n :: ns => do
    let (d, a) ← n.load? a
    let (ds, a) ← loadAll? a ns
    some (d :: ds, a)

end

/-- The document that a node is, where handles of tags stand for given texts. -/
def Node.document? (n : Node) (prefixes : List (Text × Text)) : Option Document := do
  let (d, _) ← n.load? ⟨prefixes, [], []⟩
  d.document?

end IsolatedSite.Document.Yaml
