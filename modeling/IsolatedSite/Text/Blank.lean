/-
# White space

The characters with the Unicode property White_Space, and trimming by it.
-/
import IsolatedSite.Text.Basic

namespace IsolatedSite.Text

/-- The 25 characters with the property White_Space. -/
def isBlank (c : Char) : Bool :=
  let n := c.toNat
  (9 ≤ n && n ≤ 13) || n == 0x20 || n == 0x85 || n == 0xA0 || n == 0x1680 ||
    (0x2000 ≤ n && n ≤ 0x200A) || n == 0x2028 || n == 0x2029 || n == 0x202F || n == 0x205F ||
    n == 0x3000

/-- The text without the white space at its ends. -/
def trim (t : Text) : Text := trimBoth isBlank t

/-- The text without the white space at its start. -/
def trimStart (t : Text) : Text := t.dropWhile isBlank

end IsolatedSite.Text
