/-
# Markup of listings

A reader of markup goes through a page one character after the other (`step`), and finds tags with
their attributes and the texts between them.  It takes nothing in a text for a tag but what follows
a `<`, and nothing for the end of an attribute but the quotation mark that it began with.

Whatever names and paths a listing is made of, none of these characters comes from them.  So the
reader finds the same tags in all listings with the same number of rows, and in them each row and
the title as they were before they were escaped (`listing_markup`).
-/
import IsolatedSite.Proofs.Escaping
import IsolatedSite.Site.Listing

namespace IsolatedSite

namespace Html

/-! ## 1. A reader of markup -/

/-- A tag with its attributes. -/
structure Tag where
  name : Text
  attributes : List (Text × Text) := []
  deriving DecidableEq, Repr

/-- One more attribute. -/
def Tag.add (tag : Tag) (key value : Text) : Tag :=
  { tag with attributes := tag.attributes ++ [(key, value)] }

/-- What a page consists of.  There is a text between any two tags, which may be empty. -/
inductive Token where
  | text (t : Text)
  | opening (tag : Tag)
  | closing (name : Text)
  | declaration (t : Text)
  deriving DecidableEq, Repr

/-- Where a reader is, with what it has seen there. -/
inductive Place where
  | text (seen : Text)
  /-- Behind a `<` that may begin a tag, and before it a text. -/
  | mark (before : Text)
  | declaration (seen : Text)
  | closing (seen : Text)
  | name (seen : Text)
  /-- In a tag, behind its name or an attribute. -/
  | between (tag : Tag)
  | key (tag : Tag) (seen : Text)
  /-- Behind the `=` of an attribute. -/
  | equals (tag : Tag) (key : Text)
  | bare (tag : Tag) (key seen : Text)
  | quoted (quote : Char) (tag : Tag) (key seen : Text)
  deriving DecidableEq, Repr

/-- White space in a tag. -/
def isGap (c : Char) : Bool := c ∈ [' ', '\t', '\n', '\x0c', '\r']

/-- Ends a tag. -/
def finish (tag : Tag) : Place × List Token := (.text [], [.opening tag])

/-- Reads a character: where that leads to, and what has ended. -/
def step : Place → Char → Place × List Token
  | .text seen, c => if c = '<' then (.mark seen, []) else (.text (seen ++ [c]), [])
  | .mark before, c =>
    if c.isAlpha then (.name [c], [.text (unescape before)])
    else if c = '/' then (.closing [], [.text (unescape before)])
    else if c = '!' ∨ c = '?' then (.declaration [], [.text (unescape before)])
    else if c = '<' then (.mark (before ++ ['<']), [])
    else (.text (before ++ ['<', c]), [])
  | .declaration seen, c =>
    if c = '>' then (.text [], [.declaration seen]) else (.declaration (seen ++ [c]), [])
  | .closing seen, c =>
    if c = '>' then (.text [], [.closing seen]) else (.closing (seen ++ [c]), [])
  | .name seen, c =>
    if c = '>' then finish ⟨seen, []⟩
    else if isGap c ∨ c = '/' then (.between ⟨seen, []⟩, [])
    else (.name (seen ++ [c]), [])
  | .between tag, c =>
    if c = '>' then finish tag
    else if isGap c ∨ c = '/' then (.between tag, [])
    else (.key tag [c], [])
  | .key tag seen, c =>
    if c = '>' then finish (tag.add seen [])
    else if c = '=' then (.equals tag seen, [])
    else if isGap c ∨ c = '/' then (.between (tag.add seen []), [])
    else (.key tag (seen ++ [c]), [])
  | .equals tag key, c =>
    if c = '>' then finish (tag.add key [])
    else if c = '"' ∨ c = '\'' then (.quoted c tag key [], [])
    else if isGap c then (.equals tag key, [])
    else (.bare tag key [c], [])
  | .bare tag key seen, c =>
    if c = '>' then finish (tag.add key (unescape seen))
    else if isGap c then (.between (tag.add key (unescape seen)), [])
    else (.bare tag key (seen ++ [c]), [])
  | .quoted quote tag key seen, c =>
    if c = quote then (.between (tag.add key (unescape seen)), [])
    else (.quoted quote tag key (seen ++ [c]), [])

/-- Reads a text: where that leads to, and what has ended on the way. -/
def read : Place → Text → Place × List Token
  | place, [] => (place, [])
  | place, c :: rest =>
    let here := step place c
    let later := read here.1 rest
    (later.1, here.2 ++ later.2)

/-- The text that a page ends with.  A tag that does not end is none. -/
def lastText : Place → List Token
  | .text seen => [.text (unescape seen)]
  | .mark before => [.text (unescape (before ++ ['<']))]
  | _ => []

/-- The tags and texts of a page. -/
def tokens (page : Text) : List Token :=
  (read (.text []) page).2 ++ lastText (read (.text []) page).1

example : tokens "1 < 2<p id='>' b>&lt;</p>".toList =
    [.text "1 < 2".toList, .opening ⟨['p'], [("id".toList, ['>']), (['b'], [])]⟩, .text ['<'],
     .closing ['p'], .text []] := by decide +kernel

/-- A token without its text or the values of its attributes. -/
def Token.outline : Token → Token
  | .text _ => .text []
  | .opening tag => .opening { tag with attributes := tag.attributes.map fun a => (a.1, []) }
  | .closing name => .closing name
  | .declaration t => .declaration t

/-! ## 2. Reading parts of a page -/

variable {place next last : Place} {s t seen : Text} {xs ys : List Token}

/-- **Reading goes on** where it stopped. -/
theorem read_append (hs : read place s = (next, xs)) (ht : read next t = (last, ys)) :
    read place (s ++ t) = (last, xs ++ ys) := by
  induction s generalizing place xs with
  | nil =>
    obtain ⟨rfl, rfl⟩ := Prod.mk.inj hs
    exact ht
  | cons c s ih =>
    obtain ⟨hnext, rfl⟩ := Prod.mk.inj hs
    rw [List.cons_append, read, ih (Prod.ext hnext rfl), List.append_assoc]

/-- A place that keeps what it is given keeps a text. -/
theorem read_keeping (keeping : Text → Place)
    (h : ∀ c ∈ t, ∀ seen, step (keeping seen) c = (keeping (seen ++ [c]), [])) :
    read (keeping seen) t = (keeping (seen ++ t), []) := by
  induction t generalizing seen with
  | nil => rw [List.append_nil, read]
  | cons c t ih =>
    obtain ⟨hc, ht⟩ := List.forall_mem_cons.mp h
    simp only [read, hc, ih ht, List.append_assoc, List.singleton_append, List.append_nil]

theorem read_text (h : '<' ∉ t) : read (.text seen) t = (.text (seen ++ t), []) := by
  refine read_keeping .text ?_
  intro c hc seen
  rw [step, if_neg (ne_of_mem_of_not_mem hc h)]

theorem read_quoted {quote : Char} {tag : Tag} {key : Text} (h : quote ∉ t) :
    read (.quoted quote tag key seen) t = (.quoted quote tag key (seen ++ t), []) := by
  refine read_keeping (.quoted quote tag key) ?_
  intro c hc seen
  rw [step, if_neg (ne_of_mem_of_not_mem hc h)]

/-- **An escaped text** is text, up to the closing tag behind it. -/
theorem read_inside {behind : Text} (hbehind : read (.closing []) behind = (last, ys))
    (inside : Text) :
    read (.text []) (escape inside ++ '<' :: '/' :: behind) = (last, .text inside :: ys) := by
  have htext : read (.text []) (escape inside) = (.text (escape inside), []) :=
    read_text (not_mem_escape (by decide) inside)
  have hmark : read (.text (escape inside)) ['<', '/'] =
      (.closing [], [.text (unescape (escape inside))]) := rfl
  rw [unescape_escape] at hmark
  exact read_append htext (read_append hmark hbehind)

/-- **An escaped text in quotation marks** is the value of an attribute. -/
theorem read_quoted_escape (tag : Tag) (key t : Text) :
    read (.quoted '"' tag key []) (escape t ++ ['"']) = (.between (tag.add key t), []) := by
  have hvalue : read (.quoted '"' tag key []) (escape t) = (.quoted '"' tag key (escape t), []) :=
    read_quoted (not_mem_escape (by decide) t)
  have hend : read (.quoted '"' tag key (escape t)) ['"'] =
      (.between (tag.add key (unescape (escape t))), []) := rfl
  rw [unescape_escape] at hend
  exact read_append hvalue hend

/-- **An element** with an escaped text in it, and another one as value of its last attribute. -/
theorem read_element {front behind key : Text} {tag : Tag}
    (hfront : read place front = (.quoted '"' tag key [], xs))
    (hbehind : read (.closing []) behind = (last, ys)) (value inside : Text) :
    read place (front ++ escape value ++ ['"', '>'] ++ escape inside ++ '<' :: '/' :: behind) =
      (last, xs ++ .opening (tag.add key value) :: .text inside :: ys) := by
  have hvalue := read_append hfront (read_quoted_escape tag key value)
  have htag : read (.between (tag.add key value)) ['>'] =
      (.text [], [.opening (tag.add key value)]) := rfl
  have helement := read_append (read_append hvalue htag) (read_inside hbehind inside)
  simpa using helement

end Html

namespace Site

open Html

/-! ## 3. Listings -/

/-- The tags and texts of a row: the line break in front of it, and an item with a link. -/
def Row.tokens (row : Row) : List Token :=
  [.text ['\n'], .opening ⟨"li".toList, []⟩, .text [],
   .opening ⟨"a".toList, [("href".toList, row.href)]⟩, .text row.shown, .closing "a".toList,
   .text [], .closing "li".toList]

/-- What stands in front of the title. -/
def topTokens : List Token :=
  [.text [], .declaration "DOCTYPE html".toList, .text ['\n'],
   .opening ⟨"html".toList, [("lang".toList, "en".toList)]⟩, .text ['\n'],
   .opening ⟨"head".toList, []⟩, .text ['\n'],
   .opening ⟨"meta".toList, [("charset".toList, "utf-8".toList)]⟩, .text ['\n'],
   .opening ⟨"title".toList, []⟩]

/-- What stands between the title and the heading. -/
def middleTokens : List Token :=
  [.closing "title".toList, .text ['\n'], .closing "head".toList, .text ['\n'],
   .opening ⟨"body".toList, []⟩, .text ['\n'], .opening ⟨"h1".toList, []⟩]

/-- What stands between the heading and the rows. -/
def aboveTokens : List Token :=
  [.closing "h1".toList, .text ['\n'], .opening ⟨"hr".toList, []⟩, .text ['\n'],
   .opening ⟨"ul".toList, []⟩]

/-- What stands below the rows. -/
def belowTokens : List Token :=
  [.text ['\n'], .closing "ul".toList, .text ['\n'], .opening ⟨"hr".toList, []⟩, .text ['\n'],
   .closing "body".toList, .text ['\n'], .closing "html".toList]

/-- The tags and texts of a listing. -/
def listingTokens (path : Text) (rows : List Row) : List Token :=
  topTokens ++ [.text (listingTitle path)] ++ middleTokens ++ [.text (listingTitle path)] ++
    aboveTokens ++ rows.flatMap Row.tokens ++ belowTokens ++ [.text ['\n']]

/-- **A row** is read as a link with its target and what it shows. -/
theorem read_markup (row : Row) :
    read (.text ['\n']) row.markup = (.text ['\n'], row.tokens) := by
  have hfront : read (.text ['\n']) "<li><a href=\"".toList =
      (.quoted '"' ⟨"a".toList, []⟩ "href".toList [],
        [.text ['\n'], .opening ⟨"li".toList, []⟩, .text []]) := by decide +kernel
  have hclose : read (.closing []) "a></li>\n".toList =
      (.text ['\n'], [.closing "a".toList, .text [], .closing "li".toList]) := by decide +kernel
  have hquote : "\">".toList = ['"', '>'] := by decide
  have hbehind : "</a></li>\n".toList = '<' :: '/' :: "a></li>\n".toList := by decide
  have hrow := read_element hfront hclose row.href row.shown
  rw [← hquote, ← hbehind] at hrow
  exact hrow

theorem read_rows (rows : List Row) :
    read (.text ['\n']) (rows.flatMap Row.markup) = (.text ['\n'], rows.flatMap Row.tokens) := by
  induction rows with
  | nil => rfl
  | cons row rows ih =>
    rw [List.flatMap_cons, List.flatMap_cons]
    exact read_append (read_markup row) ih

/-- What stands around the rows, with the title in it twice, is read as it should be. -/
theorem read_around {top middle above below : Text}
    (htop : read (.text []) top = (.text [], topTokens))
    (hmiddle : read (.closing []) middle = (.text [], middleTokens))
    (habove : read (.closing []) above = (.text ['\n'], aboveTokens))
    (hbelow : read (.text ['\n']) below = (.text ['\n'], belowTokens)) (path : Text)
    (rows : List Row) :
    tokens (top ++ escape (listingTitle path) ++ '<' :: '/' :: middle ++
      escape (listingTitle path) ++ '<' :: '/' :: above ++ rows.flatMap Row.markup ++ below) =
        listingTokens path rows := by
  have htitle := read_append htop (read_inside hmiddle (listingTitle path))
  have hheading := read_append htitle (read_inside habove (listingTitle path))
  have hpage := read_append (read_append hheading (read_rows rows)) hbelow
  have hlast : lastText (.text ['\n']) = [.text ['\n']] := by decide
  simp only [List.append_assoc, List.cons_append] at hpage ⊢
  rw [tokens, hpage, hlast, listingTokens]
  simp only [List.append_assoc, List.cons_append, List.nil_append]

/-- **The reader finds the listing**: the same tags around the rows, the title twice, and for each
row an item with a link whose target and text are those of the row. -/
theorem tokens_listingPage (path : Text) (rows : List Row) :
    tokens (listingPage path rows) = listingTokens path rows := by
  have hmiddle : "</title>\n</head>\n<body>\n<h1>".toList =
      '<' :: '/' :: "title>\n</head>\n<body>\n<h1>".toList := by decide
  have habove : "</h1>\n<hr>\n<ul>\n".toList = '<' :: '/' :: "h1>\n<hr>\n<ul>\n".toList := by
    decide
  unfold listingPage
  dsimp only
  rw [hmiddle, habove]
  refine read_around ?_ ?_ ?_ ?_ path rows
  all_goals decide +kernel

/-- A row without a name, of a file. -/
def Row.blank : Row := ⟨[], false, false⟩

theorem map_outline_rows (rows : List Row) :
    (rows.flatMap Row.tokens).map Token.outline =
      ((List.replicate rows.length Row.blank).flatMap Row.tokens).map Token.outline := by
  have hrow : ∀ row : Row, row.tokens.map Token.outline = Row.blank.tokens.map Token.outline :=
    fun _ => rfl
  induction rows with
  | nil => rfl
  | cons row rows ih =>
    rw [List.flatMap_cons, List.map_append, ih, hrow, List.length_cons, List.replicate_succ,
      List.flatMap_cons, List.map_append]

/-- **Names cannot inject markup.**  Whatever the path and the rows of a listing are, a reader of
markup finds the tags of the page and the rows with their targets and texts, the title and the
heading with the path.  Nothing in a path or a name makes a tag or an attribute: they are those of
a listing of as many rows without names. -/
theorem listing_markup (path : Text) (rows : List Row) :
    tokens (listingPage path rows) = listingTokens path rows ∧
      (tokens (listingPage path rows)).map Token.outline =
        (tokens (listingPage [] (List.replicate rows.length Row.blank))).map Token.outline := by
  refine ⟨tokens_listingPage path rows, ?_⟩
  rw [tokens_listingPage, tokens_listingPage]
  simp only [listingTokens, List.map_append, map_outline_rows rows]
  rfl

end Site

end IsolatedSite
