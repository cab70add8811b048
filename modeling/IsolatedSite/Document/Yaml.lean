/-
# YAML documents

Lists and tables by indentation or in brackets, plain scalars, scalars in quotes, blocks of text,
anchors and aliases, tags, keys behind a mark of their own, and directives.

The text is worked on line by line.  What stands behind a mark (a dash, a question mark, a colon in
front of the value of a marked key) is read as if a blank stood in the place of the mark, so that
columns keep their meaning.
-/
import IsolatedSite.Document.Yaml.Datum
import IsolatedSite.Document.Yaml.Flow

namespace IsolatedSite.Document.Yaml

/-! ## 1. Lines -/

/-- How many spaces a line begins with. -/
def indent (l : Text) : Nat := (l.takeWhile (· == ' ')).length

/-- A line that holds blanks or a comment at most. -/
def isIdle (l : Text) : Bool :=
  match l.dropWhile isBlank with
  | [] => true
  | c :: _ => c == '#'

/-- The lines from the next one with content on. -/
def skipIdle (ls : List Text) : List Text := ls.dropWhile isIdle

/-- A line whose content begins with a mark that is a word. -/
def isMarked (mark : Char) (l : Text) : Bool :=
  match l.dropWhile (· == ' ') with
  | c :: t => c == mark && endsWord t
  | [] => false

/-- A line with a blank in the place of the mark that its content begins with. -/
def unmarked (l : Text) : Text :=
  let n := indent l
  List.replicate (n + 1) ' ' ++ l.drop (n + 1)

/-- A line that is an item of a list. -/
def isItem (l : Text) : Bool := isMarked '-' l

/-- Whether what stands behind a scalar on its line is nothing but a comment, with a blank in front
of it. -/
def isLineEnd (t : Text) : Bool :=
  match t with
  | [] => true
  | c :: _ => isBlank c && isIdle t

/-! ## 2. Scalars -/

/-- The plain scalar that a text begins with, and what stands behind it on the line: a colon or
a comment ends it. -/
def plainPart (before : Bool) : Text → Text × Text
  | [] => ([], [])
  | c :: t =>
    if (c == '#' && before) || (c == ':' && endsWord t) then ([], c :: t)
    else
      let (s, rest) := plainPart (isBlank c) t
      (c :: s, rest)

/-- Whether nothing stands behind a plain scalar on its line but a comment. -/
def endsPlainLine (rest : Text) : Bool := rest.head? != some ':'

/-- The lines that go on with a plain scalar, and those behind them.  A comment ends it. -/
def continuation? (column : Nat) : List Text → Option (List Text × List Text)
  | [] => some ([], [])
  | l :: ls =>
    let content := trimBoth isBlank l
    if content = [] then (continuation? column ls).map fun r => ([] :: r.1, r.2)
    else if indent l < column ∨ content.head? = some '#' then some ([], l :: ls)
    else
      let (part, rest) := plainPart true content
      if ¬ endsPlainLine rest then none
      else if rest ≠ [] then some ([trimEnd isBlank part], ls)
      else (continuation? column ls).map fun r => (part :: r.1, r.2)

/-- A plain scalar that begins with the given text and may go on in the lines behind it. -/
def plainScalar? (column : Nat) (t : Text) (ls : List Text) : Option (Text × List Text) := do
  if ¬ startsPlain t then none
  let (part, rest) := plainPart false t
  if ¬ endsPlainLine rest then none
  let part := trimEnd isBlank part
  if rest ≠ [] then some (part, ls)
  else
    let (more, behind) ← continuation? column ls
    some (part ++ foldFrom 0 (trimEnd (· == []) more), behind)

/-- What is done about the line ends at the end of a block of text. -/
inductive Chomp where
  | strip
  | clip
  | keep
  deriving DecidableEq, Repr

/-- The head of a block of text: how its end is treated, and how far it is indented. -/
def blockHead? (t : Text) : Option (Chomp × Option Nat) :=
  let marks := t.takeWhile fun c => !isBlank c
  if ¬ isLineEnd (t.drop marks.length) then none
  else match marks with
    | [] => some (.clip, none)
    | ['-'] => some (.strip, none)
    | ['+'] => some (.keep, none)
    | [d] => if d.isDigit ∧ d ≠ '0' then some (.clip, some (d.toNat - 48)) else none
    | [a, b] =>
      let (sign, d) := if a.isDigit then (b, a) else (a, b)
      if d.isDigit ∧ d ≠ '0' then
        if sign = '-' then some (.strip, some (d.toNat - 48))
        else if sign = '+' then some (.keep, some (d.toNat - 48)) else none
      else none
    | _ => none

/-- The lines of a block of text in which line ends stay, or count as spaces between lines that
begin at the block's edge. -/
def blockBody (folded : Bool) : List Text → Text
  | [] => []
  | [l] => l
  | l :: m :: ls =>
    let atEdge (x : Text) := x ≠ [] && !(x.head?.map isBlank).getD false
    let rest := blockBody folded (m :: ls)
    if ¬ folded then l ++ '\n' :: rest
    else if atEdge l && atEdge m then l ++ ' ' :: rest
    else if atEdge l && m == [] && ((ls.dropWhile (· == [])).head?.map atEdge).getD false then
      l ++ rest
    else l ++ '\n' :: rest

/-- A line of spaces only. -/
def isSpaces (l : Text) : Bool := l.all (· == ' ')

/-- How far a block of text is indented that does not say so: as far as its first line with content,
or an empty line in front of that one. -/
def blockEdge (column : Nat) (ls : List Text) : Nat :=
  let first := (ls.dropWhile isSpaces).head?.map indent
  ((ls.takeWhile isSpaces).map indent).foldl max (max column (first.getD 0))

/-- A block of text, from behind the mark that opens it. -/
def block? (folded : Bool) (column : Nat) (head : Text) (ls : List Text) :
    Option (Text × List Text) := do
  let (chomp, given) ← blockHead? head
  let edge := (given.map fun n => column - 1 + n).getD (blockEdge column ls)
  let own := ls.takeWhile fun l => isSpaces l || edge ≤ indent l
  let behind := ls.drop own.length
  let lines := own.map fun l => l.drop edge
  let content := trimEnd (· == []) lines
  let body := blockBody folded content
  let text := match chomp with
    | .strip => body
    | .clip => if content = [] then [] else body ++ ['\n']
    | .keep =>
      let last := if content = [] then 0 else 1
      body ++ List.replicate (lines.length - content.length + last) '\n'
  some (text, behind)

/-! ## 3. Nodes in a line -/

/-- An alias from behind its mark.  It has neither anchor nor tag. -/
def alias? (p : Properties) (t : Text) : Option (Node × Text) :=
  if p = .none then (name? t).map fun r => (.alias r.1, r.2) else none

/-- A character that begins a node with marks of its own. -/
def isOpening (c : Char) : Bool := ['[', '\x7b', '"', '\''].contains c

/-- A line that may belong to a node in brackets or quotes: its content is indented, but for a
closing bracket. -/
def mayBelong (column : Nat) (l : Text) : Bool :=
  isIdle l || column ≤ indent l || [some ']', some '\x7d'].contains (l.drop (indent l)).head?

/-- A node in brackets or quotes that may go over several lines, and the lines behind it. -/
def spread? (column : Nat) (p : Properties) (t : Text) (ls : List Text) :
    Option (Node × List Text) :=
  let inLine := (bracketed? p t).map fun r => (r.1, r.2, ls)
  let overLines := (bracketed? p (joinWith ['\n'] (t :: ls))).map fun r =>
    match splitAtEach '\n' r.2 with
    | l :: more => (r.1, l, more)
    | [] => (r.1, [], [])
  (inLine.or overLines).bind fun r =>
    if isLineEnd r.2.1 ∧ (ls.take (ls.length - r.2.2.length)).all (mayBelong column) then
      some (r.1, r.2.2)
    else none

/-- A node behind its properties that begins in a line and is no list or table by indentation;
`column` is the least indentation of the lines that may belong to it. -/
def inline? (column : Nat) (p : Properties) (t : Text) (ls : List Text) :
    Option (Node × List Text) :=
  match t with
  | '|' :: head => (block? false column head ls).map fun r => (.scalar p false r.1, r.2)
  | '>' :: head => (block? true column head ls).map fun r => (.scalar p false r.1, r.2)
  | '*' :: t => (alias? p t).bind fun r => if isLineEnd r.2 then some (r.1, ls) else none
  | c :: _ =>
    if isOpening c then spread? column p t ls
    else (plainScalar? column t ls).map fun r => (.scalar p true r.1, r.2)
  | [] => none

/-- The text behind the blanks that it begins with. -/
def skipBlanks (t : Text) : Text := t.dropWhile isBlank

/-- The node that a text begins with if it is a key without a mark, and the text behind it. -/
def keyNode? (p : Properties) (t : Text) : Option (Node × Text) :=
  match t with
  | '*' :: t => alias? p t
  | c :: _ =>
    if isOpening c then bracketed? p t
    else if startsPlain t then
      let (s, rest) := plainPart false t
      some (.scalar p true (trimEnd isBlank s), rest)
    else some (p.alone, t)
  | [] => none

/-- How long a key may be that has no mark in front of it. -/
def maxKeyLength : Nat := 1024

/-- The key that a line begins with, and the text behind its colon. -/
def blockKey? (t : Text) : Option (Node × Text) := do
  let (p, content) ← properties? false skipBlanks 2 .none t
  let (key, behind) ← keyNode? p content
  match skipBlanks behind with
  | ':' :: rest =>
    if endsWord rest ∧ t.length - (rest.length + 1) ≤ maxKeyLength then some (key, rest) else none
  | _ => none

/-- A line whose content is a member of a table. -/
def isMember (content : Text) : Bool := isMarked '?' content || (blockKey? content).isSome

/-! ## 4. Lists and tables -/

mutual

/-- The node in the lines that are indented to `column` at least, behind properties that stand in
front of it; `dashes` allows a list one column further left. -/
def node? : (fuel : Nat) → (column : Nat) → (dashes : Bool) → Properties → List Text →
    Option (Node × List Text)
  | 0, _, _, _, _ => none
  | fuel + 1, column, dashes, p, ls => match skipIdle ls with
    | [] => some (p.alone, [])
    | l :: ls =>
      let edge := indent l
      let content := l.drop edge
      if isItem l ∧ (column ≤ edge ∨ dashes = true ∧ column = edge + 1) then
        (items? fuel edge (l :: ls)).map fun r => (.list p r.1, r.2)
      else if edge < column then some (p.alone, l :: ls)
      else if isMember content then
        (parts? fuel edge (l :: ls)).map fun r => (.table p r.1, r.2)
      else content? fuel column dashes p content ls

/-- The node that begins in the rest of a line, or in the lines behind it if nothing but properties
is left of the line. -/
def content? : (fuel : Nat) → (column : Nat) → (dashes : Bool) → Properties → Text → List Text →
    Option (Node × List Text)
  | 0, _, _, _, _, _ => none
  | fuel + 1, column, dashes, p, t, ls => do
    let (q, t) ← properties? false skipBlanks 2 .none (skipBlanks t)
    let p ← p.merge? q
    if isIdle t then node? fuel column dashes p ls else inline? column p t ls

/-- The items of a list whose dashes stand in the column `edge`. -/
def items? : (fuel : Nat) → (edge : Nat) → List Text → Option (List Node × List Text)
  | 0, _, _ => none
  | fuel + 1, edge, ls => match skipIdle ls with
    | [] => some ([], [])
    | l :: ls =>
      if indent l < edge ∨ (indent l = edge ∧ ¬ isItem l) then some ([], l :: ls)
      else if edge < indent l then none
      else do
        let (n, ls) ← node? fuel (edge + 1) false .none (unmarked l :: ls)
        let (ns, ls) ← items? fuel edge ls
        some (n :: ns, ls)

/-- The keys and values of a table whose keys stand in the column `edge`. -/
def parts? : (fuel : Nat) → (edge : Nat) → List Text → Option (List Node × List Text)
  | 0, _, _ => none
  | fuel + 1, edge, ls => match skipIdle ls with
    | [] => some ([], [])
    | l :: ls =>
      if indent l < edge then some ([], l :: ls)
      else if edge < indent l then none
      else do
        let (key, value, ls) ←
          if isMarked '?' l then markedPair? fuel edge l ls
          else do
            let (key, rest) ← blockKey? (l.drop edge)
            if isTabbed rest then none
            let (value, ls) ← content? fuel (edge + 1) true .none rest ls
            some (key, value, ls)
        let (ns, ls) ← parts? fuel edge ls
        some (key :: value :: ns, ls)

/-- A key behind a mark in the column `edge`, its value if it has one, and the lines behind. -/
def markedPair? : (fuel : Nat) → (edge : Nat) → Text → List Text →
    Option (Node × Node × List Text)
  | 0, _, _, _ => none
  | fuel + 1, edge, l, ls => do
    let (key, ls) ← node? fuel (edge + 1) true .none (unmarked l :: ls)
    match skipIdle ls with
    | m :: more =>
      if indent m = edge ∧ isMarked ':' m then
        let (value, ls) ← node? fuel (edge + 1) true .none (unmarked m :: more)
        some (key, value, ls)
      else some (key, .nothing, m :: more)
    | [] => some (key, .nothing, [])

end

/-! ## 5. Documents -/

/-- A line that begins a document. -/
def isStart (l : Text) : Bool := l.take 3 == "---".toList && endsWord (l.drop 3)

/-- A line that ends a document. -/
def isEnd (l : Text) : Bool := l.take 3 == "...".toList && endsWord (l.drop 3)

/-- A line that directs how a document is read. -/
def isDirective (l : Text) : Bool := l.head? == some '%'

/-- What directives say: what handles of tags stand for, and whether there was a version. -/
structure Directives where
  prefixes : List (Text × Text)
  hasVersion : Bool

/-- The words of a line up to a comment. -/
def wordsOf (l : Text) : List Text :=
  let words := (splitAtEach ' ' (l.map fun c => if isBlank c then ' ' else c)).filter (· ≠ [])
  words.takeWhile fun w => w.head? != some '#'

/-- A version of the notation: two numbers with a dot between them. -/
def isVersion (t : Text) : Bool :=
  match splitAtEach '.' t with
  | [a, b] => [a, b].all fun n => n ≠ [] && n.length ≤ 9 && n.all Char.isDigit
  | _ => false

/-- The directives up to a line.  Unknown ones do not count. -/
def directed? (ds : Directives) (l : Text) : Option Directives :=
  match wordsOf l with
  | name :: arguments =>
    if name = "%TAG".toList then match arguments with
      | [handle, start] =>
        if (ds.prefixes.lookup handle).isSome then none
        else some { ds with prefixes := (handle, start) :: ds.prefixes }
      | _ => none
    else if name = "%YAML".toList then match arguments with
      | [version] =>
        if isVersion version ∧ ¬ ds.hasVersion then some { ds with hasVersion := true } else none
      | _ => none
    else some ds
  | [] => some ds

/-- The lines of a document: what handles of tags stand for in it, the rest of the line that begins
it, and the lines behind that one. -/
structure Source where
  prefixes : List (Text × Text)
  head : Text
  lines : List Text

/-- Where a line of a text stands. -/
inductive Place where
  /-- In front of a document, with the directives that were given, if there were any. -/
  | between (ds : Option Directives)
  /-- In a document, whose lines so far are kept last one first. -/
  | inside (s : Source)

/-- A document with its lines in order. -/
def Source.closed (s : Source) : Source := { s with lines := s.lines.reverse }

/-- The documents of a text from a line on. -/
def sourcesFrom? : Place → List Text → Option (List Source)
  | .between ds, [] => if ds.isSome then none else some []
  | .inside s, [] => some [s.closed]
  | .between ds, l :: ls =>
    let before := ds.getD ⟨[], false⟩
    if isStart l then sourcesFrom? (.inside ⟨before.prefixes, l.drop 3, []⟩) ls
    else if isDirective l then
      (directed? before l).bind fun more => sourcesFrom? (.between (some more)) ls
    else if isIdle l then sourcesFrom? (.between ds) ls
    else if ds.isSome then none
    else if isEnd l then sourcesFrom? (.between none) ls
    else sourcesFrom? (.inside ⟨[], [], [l]⟩) ls
  | .inside s, l :: ls =>
    if isStart l then
      (sourcesFrom? (.inside ⟨[], l.drop 3, []⟩) ls).map fun more => s.closed :: more
    else if isEnd l then
      if isIdle (l.drop 3) then
        (sourcesFrom? (.between none) ls).map fun more => s.closed :: more
      else none
    else sourcesFrom? (.inside { s with lines := l :: s.lines }) ls

/-- The lines of a text, whatever ends them; the last one may do without an end. -/
def linesOf (t : Text) : List Text :=
  let ends := (replaceAll ['\r', '\n'] ['\n'] t).map fun c => if c = '\r' then '\n' else c
  let pieces := splitAtEach '\n' ends
  if pieces.getLast? = some [] then pieces.dropLast else pieces

/-- The document of a source; all its lines have to belong to it. -/
def Source.document? (s : Source) : Option Document := do
  let size := s.head.length + s.lines.flatten.length + s.lines.length
  let (n, rest) ← content? (4 * size + 4) 0 false .none s.head s.lines
  if (skipIdle rest).isEmpty then n.document? s.prefixes else none

/-- The document that a text spells.  A text without any is an empty table, one with several is
refused. -/
def read? (t : Text) : Option Document :=
  (sourcesFrom? (.between none) (linesOf t)).bind fun sources =>
    match sources with
    | [] => some (.table [])
    | [s] => s.document?
    | _ => none

end IsolatedSite.Document.Yaml
