/-
# YAML in brackets

Lists in brackets and tables in braces, which may go over several lines and hold comments.
-/
import IsolatedSite.Document.Yaml.Node

namespace IsolatedSite.Document.Yaml

/-! ## 1. Pieces -/

/-- The text behind blanks, line ends and comments; each comment ends a line. -/
def skipSpaceWithin : (fuel : Nat) → Text → Text
  | 0, t => t
  | fuel + 1, t =>
    match t.dropWhile isSpace with
    | '#' :: rest => skipSpaceWithin fuel (rest.dropWhile (· ≠ '\n'))
    | rest => rest

/-- The text behind blanks, line ends and comments; no comment begins right away. -/
def skipSpace (t : Text) : Text :=
  if t.head? = some '#' then t else skipSpaceWithin (t.length + 1) t

/-- The end of a word, or a mark that ends it. -/
def endsPlain (t : Text) : Bool := endsWord t || (t.head?.map isFlowMark).getD false

/-- The characters of a plain scalar in brackets, and the text behind them; `before` tells whether
a blank comes first. -/
def flowPlain (before : Bool) : Text → Text × Text
  | [] => ([], [])
  | c :: t =>
    let stops := isFlowMark c || (c == '#' && before) || (c == ':' && endsPlain t)
    if stops then ([], c :: t)
    else
      let (s, rest) := flowPlain (isSpace c) t
      (c :: s, rest)

/-- Whether a plain scalar in brackets can begin here. -/
def startsFlowPlain (t : Text) : Bool :=
  startsPlain t && !(t.head? == some '-' && endsPlain (t.drop 1))

/-- The text behind a colon between a key and its value; behind a key with marks of its own the
value may follow at once. -/
def colon? (key : Node) : Text → Option Text
  | ':' :: t => if (key.isMarked || endsPlain t) && !isTabbed t then some t else none
  | _ => none

/-- The text behind the mark of a key, and whether there is one. -/
def keyMark (t : Text) : Bool × Text :=
  match t with
  | '?' :: rest => if endsPlain rest then (true, skipSpace rest) else (false, t)
  | _ => (false, t)

/-! ## 2. Lists and tables -/

/-- How deep brackets may be nested. -/
def maxDepth : Nat := 255

mutual

/-- A node behind its properties, and the text behind it. -/
def flowContent? (depth : Nat) : (fuel : Nat) → Properties → Text → Option (Node × Text)
  | 0, _, _ => none
  | fuel + 1, p, t => match t with
    | '[' :: t =>
      if depth = 0 then none
      else (flowItems? (depth - 1) fuel t).map fun r => (.list p r.1, r.2)
    | '\x7b' :: t =>
      if depth = 0 then none
      else (flowPairs? (depth - 1) fuel t).map fun r => (.table p r.1, r.2)
    | '*' :: t => if p = .none then (name? t).map fun r => (.alias r.1, r.2) else none
    | t => match quoted? t with
      | some (s, rest) => some (.scalar p false s, rest)
      | none =>
        if startsFlowPlain t then
          let (s, rest) := flowPlain false t
          some (.scalar p true (foldLines (trimEnd isSpace s)), rest)
        else if p = .none then none
        else some (p.alone, t)

/-- A node and the text behind it. -/
def flowNode? (depth : Nat) : (fuel : Nat) → Text → Option (Node × Text)
  | 0, _ => none
  | fuel + 1, t => do
    let (p, t) ← properties? true skipSpace 2 .none t
    flowContent? depth fuel p t

/-- A node that may be missing in front of a mark. -/
def flowOptional? (depth : Nat) : (fuel : Nat) → Text → Option (Node × Text)
  | 0, _ => none
  | fuel + 1, t =>
    if (t.head?.map isFlowMark).getD false && t.head? != some '[' && t.head? != some '\x7b' ||
        (colon? .nothing t).isSome then some (.nothing, t)
    else flowNode? depth fuel t

/-- A key and its value, or a node alone, and the text behind them. -/
def flowParts? (depth : Nat) : (fuel : Nat) → Text → Option (List Node × Text)
  | 0, _ => none
  | fuel + 1, t => do
    let (isKey, t) := keyMark t
    let (key, t) ← if isKey then flowOptional? depth fuel t else flowNode? depth fuel t
    let t := skipSpace t
    match colon? key t with
    | some t => do
      let (v, t) ← flowOptional? depth fuel (skipSpace t)
      some ([key, v], skipSpace t)
    | none => some (if isKey then [key, .nothing] else [key], t)

/-- The items of a list up to its closing bracket.  A pair among them is a table of its own. -/
def flowItems? (depth : Nat) : (fuel : Nat) → Text → Option (List Node × Text)
  | 0, _ => none
  | fuel + 1, t => match skipSpace t with
    | ']' :: t => some ([], t)
    | t => do
      let (parts, t) ← flowParts? depth fuel t
      let item := match parts with
        | [n] => n
        | parts => .table .none parts
      match t with
      | ',' :: t => (flowItems? depth fuel t).map fun r => (item :: r.1, r.2)
      | ']' :: t => some ([item], t)
      | _ => none

/-- The parts of a table up to its closing brace.  A key without a value has none. -/
def flowPairs? (depth : Nat) : (fuel : Nat) → Text → Option (List Node × Text)
  | 0, _ => none
  | fuel + 1, t => match skipSpace t with
    | '\x7d' :: t => some ([], t)
    | t => do
      let (parts, t) ← flowParts? depth fuel t
      let pair := match parts with
        | [n] => [n, .nothing]
        | parts => parts
      match t with
      | ',' :: t => (flowPairs? depth fuel t).map fun r => (pair ++ r.1, r.2)
      | '\x7d' :: t => some (pair, t)
      | _ => none

end

/-- A node in brackets, braces or quotes behind its properties, and the text behind it. -/
def bracketed? (p : Properties) (t : Text) : Option (Node × Text) :=
  flowContent? maxDepth (4 * t.length + 4) p t

end IsolatedSite.Document.Yaml
