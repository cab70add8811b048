/-
# HTML text

`escape` makes a text safe inside an element or a quoted attribute; `unescape` reads the five
entities that it writes, in one pass from the left, and leaves every other `&` alone.
-/
import IsolatedSite.Text.Basic

namespace IsolatedSite.Html

/-- The entity of a character that has a meaning in markup. -/
def entity? (c : Char) : Option Text :=
  match c with
  | '&' => some "&amp;".toList
  | '<' => some "&lt;".toList
  | '>' => some "&gt;".toList
  | '"' => some "&quot;".toList
  | '\'' => some "&#x27;".toList
  | _ => none

/-- Writes the five special characters as entities. -/
def escape (t : Text) : Text := t.flatMap fun c => (entity? c).getD [c]

/-- The character whose entity a text begins with, and the rest. -/
def entityAt? (t : Text) : Option (Char × Text) :=
  ['&', '<', '>', '"', '\''].findSome? fun c =>
    (entity? c).bind fun e => (afterStart? e t).map fun rest => (c, rest)

/-- Reads entities for as many characters as `fuel` allows. -/
def unescapeFrom : Nat → Text → Text
  | 0, t => t
  | _, [] => []
  | fuel + 1, c :: rest =>
    match entityAt? (c :: rest) with
    | some (d, after) => d :: unescapeFrom fuel after
    | none => c :: unescapeFrom fuel rest

/-- Reads the five entities back. -/
def unescape (t : Text) : Text := unescapeFrom t.length t

end IsolatedSite.Html
