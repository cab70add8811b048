/-
# From URL paths to file paths

A URL path is decoded once and cut at its slashes.  Pieces that are empty, `.` or `..` are
dropped and the others are put behind the root, so that the result never leads out of it by its
text.  A NUL cannot be part of a file name.
-/
import IsolatedSite.Path
import IsolatedSite.Text.Percent

namespace IsolatedSite.Site

/-- Pieces of a URL path that do not name a file or folder. -/
def isDropped (piece : Text) : Bool := piece == [] || piece == ['.'] || piece == ['.', '.']

/-- The pieces of a URL path that name files and folders, decoded. -/
def segments (urlPath : Text) : List Text :=
  (splitAtEach '/' (Percent.decodeText urlPath)).filter fun s => ! isDropped s

/-- A piece that no file can be named by. -/
def holdsNul (piece : Text) : Bool := piece.contains (Char.ofNat 0)

/-- The file path of a URL path under `root`. -/
def translate? (root : Path) (urlPath : Text) : Option Path :=
  let pieces := segments urlPath
  if pieces.any holdsNul then none else some (root.joinAll (pieces.map Utf8.encode))

end IsolatedSite.Site
