/-
# The characters of YAML, and scalars in quotes

Where a scalar goes over several lines, a line's end counts as a space, and each empty line as a
line's end.
-/
import IsolatedSite.Text.Hex

namespace IsolatedSite.Document.Yaml

/-! ## 1. Characters -/

/-- A space or a tab. -/
def isBlank (c : Char) : Bool := c == ' ' || c == '\t'

/-- A blank or a line's end. -/
def isSpace (c : Char) : Bool := isBlank c || c == '\n'

/-- A blank, a line's end, or the end of the text. -/
def endsWord : Text → Bool
  | [] => true
  | c :: _ => isSpace c

/-- A character that ends what stands before it in brackets. -/
def isFlowMark (c : Char) : Bool := [',', '[', ']', '\x7b', '\x7d'].contains c

/-- A character with which no plain scalar begins. -/
def isIndicator (c : Char) : Bool :=
  isFlowMark c || ['#', '&', '*', '!', '|', '>', '\'', '"', '%', '@', '\x60'].contains c

/-- Whether a plain scalar can begin here. -/
def startsPlain : Text → Bool
  | [] => false
  | c :: t => if ['-', '?', ':'].contains c then !endsWord t else !isIndicator c && !isSpace c

/-- Whether nothing but tabs stands in front of a word or a dash; this does not do behind a
colon. -/
def isTabbed (t : Text) : Bool :=
  let rest := t.dropWhile (· == '\t')
  t.head? == some '\t' && (rest.head?.map fun c => c.isAlphanum || c == '-').getD false

/-! ## 2. Lines -/

/-- What stands between lines that belong together, `empty` of which were passed. -/
def lineBreak (empty : Nat) : Text := if empty = 0 then [' '] else List.replicate empty '\n'

/-- Lines put together, `empty` of them having been passed since the last one with content. -/
def foldFrom : (empty : Nat) → List Text → Text
  | empty, [] => List.replicate empty '\n'
  | empty, l :: ls =>
    if l = [] then foldFrom (empty + 1) ls
    else lineBreak empty ++ l ++ foldFrom 0 ls

/-- The text of a scalar that goes over several lines, the blanks around line ends dropped. -/
def foldLines (t : Text) : Text :=
  match splitAtEach '\n' t with
  | [] => []
  | [l] => l
  | l :: ls =>
    let middle := ls.dropLast.map (trimBoth isBlank)
    let last := (ls.getLast?.getD []).dropWhile isBlank
    trimEnd isBlank l ++
      if last = [] then
        let body := foldFrom 0 middle
        if middle.all (· == []) then lineBreak middle.length else body ++ [' ']
      else foldFrom 0 (middle ++ [last])

/-! ## 3. Scalars in quotes -/

/-- The character that an escape with one letter stands for. -/
def simpleEscape? (c : Char) : Option Char :=
  [('0', '\x00'), ('a', '\x07'), ('b', '\x08'), ('t', '\t'), ('\t', '\t'), ('n', '\n'),
   ('v', '\x0b'), ('f', '\x0c'), ('r', '\r'), ('e', '\x1b'), (' ', ' '), ('"', '"'), ('/', '/'),
   ('\\', '\\'), ('N', '\u0085'), ('_', '\u00a0'), ('L', '\u2028'), ('P', '\u2029')].lookup c

/-- The number of digits of an escape with a number. -/
def escapeDigits? (c : Char) : Option Nat := [('x', 2), ('u', 4), ('U', 8)].lookup c

/-- The character of an escape, from behind its backslash. -/
def escape? : Text → Option (Char × Text)
  | [] => none
  | c :: t =>
    match simpleEscape? c, escapeDigits? c with
    | some x, _ => some (x, t)
    | none, some n => (Hex.take? n t).bind fun p =>
        if Nat.isValidChar p.1 then some (Char.ofNat p.1, p.2) else none
    | none, none => none

/-- The line ends and blanks at the start of a text, as they count inside quotes, and the text
behind them. -/
def foldedBreak (t : Text) : Text × Text :=
  let space := t.takeWhile isSpace
  (lineBreak (space.count '\n' - 1), t.drop space.length)

/-- The rest of a scalar in double quotes.  Blanks before a line's end do not count, and a line's
end behind a backslash does not count either. -/
def double? : (fuel : Nat) → Text → Option (Text × Text)
  | 0, _ | _, [] => none
  | _ + 1, '"' :: t => some ([], t)
  | fuel + 1, '\\' :: '\n' :: t =>
    let space := t.takeWhile isSpace
    (double? fuel (t.drop space.length)).map fun p =>
      (List.replicate (space.count '\n') '\n' ++ p.1, p.2)
  | fuel + 1, '\\' :: t => do
    let (c, t) ← escape? t
    let (s, t) ← double? fuel t
    some (c :: s, t)
  | fuel + 1, c :: t =>
    if isSpace c ∧ (t.dropWhile isBlank).head? = some '\n' ∨ c = '\n' then
      let (gap, rest) := foldedBreak (c :: t)
      (double? fuel rest).map fun p => (gap ++ p.1, p.2)
    else (double? fuel t).map fun p => (c :: p.1, p.2)

/-- The rest of a scalar in single quotes, in which two quotes stand for one. -/
def single? : (fuel : Nat) → Text → Option (Text × Text)
  | 0, _ | _, [] => none
  | fuel + 1, '\'' :: '\'' :: t => (single? fuel t).map fun p => ('\'' :: p.1, p.2)
  | _ + 1, '\'' :: t => some ([], t)
  | fuel + 1, c :: t =>
    if isSpace c ∧ (t.dropWhile isBlank).head? = some '\n' ∨ c = '\n' then
      let (gap, rest) := foldedBreak (c :: t)
      (single? fuel rest).map fun p => (gap ++ p.1, p.2)
    else (single? fuel t).map fun p => (c :: p.1, p.2)

/-- A scalar in quotes of either kind. -/
def quoted? (t : Text) : Option (Text × Text) :=
  match t with
  | '"' :: t => double? (t.length + 1) t
  | '\'' :: t => single? (t.length + 1) t
  | _ => none

end IsolatedSite.Document.Yaml
