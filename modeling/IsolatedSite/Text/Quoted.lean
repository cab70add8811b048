/-
# Texts in quotes

A text as messages show it: in double quotes, with a backslash before quotes and backslashes, and
an escape for every character that would not show.
-/
import IsolatedSite.Text.HiddenTable
import IsolatedSite.Text.Lowercase

namespace IsolatedSite.Text

/-- Whether a character does not show as itself. -/
def isHidden (c : Char) : Bool := c.toNat < 32 || Case.inRanges hiddenRanges c

/-- What stands for a character between quotes. -/
def quotedChar (c : Char) : Text :=
  if c = '"' ∨ c = '\\' then ['\\', c]
  else if c = '\t' then ['\\', 't']
  else if c = '\n' then ['\\', 'n']
  else if c = '\r' then ['\\', 'r']
  else if c = '\x00' then ['\\', '0']
  else if isHidden c then "\\u\x7b".toList ++ Nat.toDigits 16 c.toNat ++ ['\x7d']
  else [c]

/-- A text in quotes. -/
def quoted (t : Text) : Text := '"' :: t.flatMap quotedChar ++ ['"']

end IsolatedSite.Text
