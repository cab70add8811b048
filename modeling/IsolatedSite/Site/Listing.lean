/-
# Directory listings

The page for a folder without an index file: one row for each name in it, in the order of the
lower-case names.  A row links to the name, percent-encoded, with a slash behind it if a folder
is found there; what it shows marks links with `@` and folders with `/`.
-/
import IsolatedSite.Files.Tree
import IsolatedSite.Text.Html
import IsolatedSite.Text.Lowercase
import IsolatedSite.Text.Percent

namespace IsolatedSite.Site

/-- A row of a listing. -/
structure Row where
  name : Text
  /-- A folder is found under the name, links followed. -/
  isFolder : Bool
  isLink : Bool
  deriving DecidableEq, Repr

namespace Row

/-- What a row shows. -/
def shown (r : Row) : Text :=
  if r.isLink then r.name ++ ['@'] else if r.isFolder then r.name ++ ['/'] else r.name

/-- Where a row leads to. -/
def href (r : Row) : Text := Percent.encode r.name ++ (if r.isFolder then ['/'] else [])

/-- The markup of a row. -/
def markup (r : Row) : Text :=
  "<li><a href=\"".toList ++ Html.escape r.href ++ "\">".toList ++ Html.escape r.shown ++
    "</a></li>\n".toList

end Row

/-- The heading of a listing. -/
def listingTitle (path : Text) : Text := "Directory listing for ".toList ++ path

/-- The page of a listing. -/
def listingPage (path : Text) (rows : List Row) : Text :=
  let title := Html.escape (listingTitle path)
  "<!DOCTYPE html>\n<html lang=\"en\">\n<head>\n<meta charset=\"utf-8\">\n<title>".toList ++ title ++
    "</title>\n</head>\n<body>\n<h1>".toList ++ title ++ "</h1>\n<hr>\n<ul>\n".toList ++
    rows.flatMap Row.markup ++ "</ul>\n<hr>\n</body>\n</html>\n".toList

/-- The order of texts: that of the first characters that differ, and a beginning of a text comes
before it. -/
def textOrder : Text → Text → Bool
  | [], _ => true
  | _ :: _, [] => false
  | a :: s, b :: t => a.toNat < b.toNat || (a == b && textOrder s t)

/-- The order of rows: that of the lower-case names, character by character. -/
def rowOrder (a b : Row) : Bool := textOrder (Text.lower a.name) (Text.lower b.name)

/-- The rows of a folder in the order in which they are shown. -/
def rowsOf (t : Files.Tree) (who : Files.Caller) (folder : Path) :
    Except Files.OsError (List Row) :=
  (t.list who [] folder).map fun names =>
    (names.map fun n =>
      Row.mk (Utf8.decodeLossy n.1) (t.isFolder who [] (Path.join folder n.1)) n.2).mergeSort
        rowOrder

end IsolatedSite.Site
