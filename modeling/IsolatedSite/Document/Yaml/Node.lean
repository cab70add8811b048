/-
# YAML nodes

What a YAML text is made of, before its scalars are understood and its aliases are followed: lists,
tables, scalars with or without quotes, and aliases.  In front of a node may stand a tag, which says
how a plain scalar is to be understood, and an anchor, which names the node for aliases behind it.
-/
import IsolatedSite.Document.Yaml.Scalar
import IsolatedSite.Text.Percent

namespace IsolatedSite.Document.Yaml

/-! ## 1. Nodes -/

/-- A tag as it is written: a handle, and what follows it.  A tag that is written out in full has
no handle. -/
structure Tag where
  handle : Text
  suffix : Text
  deriving DecidableEq, Repr

/-- What may stand in front of a node. -/
structure Properties where
  anchor : Option Text
  tag : Option Tag
  deriving DecidableEq, Repr

/-- Nothing in front of a node. -/
def Properties.none : Properties := ⟨.none, .none⟩

/-- A part of a YAML text. -/
inductive Node where
  /-- No node where one may stand. -/
  | nothing
  | alias (name : Text)
  | scalar (p : Properties) (isPlain : Bool) (t : Text)
  | list (p : Properties) (items : List Node)
  /-- A table: keys and values in turn. -/
  | table (p : Properties) (parts : List Node)

/-- Whether a node has marks of its own at its end. -/
def Node.isMarked : Node → Bool
  | .scalar _ isPlain _ => !isPlain
  | .list .. | .table .. => true
  | .nothing | .alias _ => false

/-- The node that properties stand in front of, if nothing follows them. -/
def Properties.alone (p : Properties) : Node :=
  if p = .none then .nothing else .scalar p true []

/-- Properties on two lines that belong to one node; it has one anchor and one tag at most. -/
def Properties.merge? (p q : Properties) : Option Properties :=
  if (p.anchor.isSome && q.anchor.isSome) || (p.tag.isSome && q.tag.isSome) then .none
  else some ⟨p.anchor.or q.anchor, p.tag.or q.tag⟩

/-! ## 2. Reading properties -/

/-- A character of the name of an anchor. -/
def isNameChar (c : Char) : Bool := !isSpace c && !isFlowMark c

/-- The name of an anchor, and the text behind it. -/
def name? (t : Text) : Option (Text × Text) :=
  let name := t.takeWhile isNameChar
  if name = [] then none else some (name, t.drop name.length)

/-- A character of the handle of a tag. -/
def isHandleChar (c : Char) : Bool := c.isAlphanum || c == '-' || c == '_'

/-- A character of a tag that is written out in full. -/
def isUriChar (c : Char) : Bool := isHandleChar c || "#;/?:@&=+$,.!~*'()[]%".toList.contains c

/-- A character of a tag behind its handle. -/
def isTagChar (c : Char) : Bool := isUriChar c && !isFlowMark c && c != '!'

/-- A tag from behind its first mark, and the text behind it. -/
def tag? (t : Text) : Option (Tag × Text) :=
  match t with
  | '<' :: t =>
    let uri := t.takeWhile isUriChar
    match t.drop uri.length with
    | '>' :: rest => some (⟨[], Percent.decodeText uri⟩, rest)
    | _ => none
  | t =>
    let word := t.takeWhile isHandleChar
    match t.drop word.length with
    | '!' :: rest =>
      let suffix := rest.takeWhile isTagChar
      if suffix = [] then none
      else some (⟨'!' :: word ++ ['!'], Percent.decodeText suffix⟩, rest.drop suffix.length)
    | _ =>
      let suffix := t.takeWhile isTagChar
      if suffix = [] then some (⟨[], ['!']⟩, t)
      else some (⟨['!'], Percent.decodeText suffix⟩, t.drop suffix.length)

/-- Properties at the start of a text, `most` of them at most and behind those that were read
already.  A tag ends with a word, or at a mark in brackets; `gap` drops what may stand behind a
property. -/
def properties? (inBrackets : Bool) (gap : Text → Text) : (most : Nat) → Properties → Text →
    Option (Properties × Text)
  | most + 1, p, '&' :: t => do
    let (name, rest) ← name? t
    let p ← p.merge? ⟨some name, none⟩
    properties? inBrackets gap most p (gap rest)
  | most + 1, p, '!' :: t => do
    let (tag, rest) ← tag? t
    let p ← p.merge? ⟨none, some tag⟩
    if endsWord rest || (inBrackets && (rest.head?.map isFlowMark).getD false) then
      properties? inBrackets gap most p (gap rest)
    else none
  | _, p, t => some (p, t)

end IsolatedSite.Document.Yaml
