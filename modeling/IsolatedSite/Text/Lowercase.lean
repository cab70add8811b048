/-
# Lower case

The full Unicode mapping to small letters.  It is one character for one, but for two: the
capital I with a dot keeps its dot as a character of its own, and a capital sigma that ends a
word becomes the final small sigma.
-/
import IsolatedSite.Text.Basic
import IsolatedSite.Text.CaseTable

namespace IsolatedSite.Text

namespace Case

/-- Whether a character lies in one of the ranges. -/
def inRanges (ranges : List (Nat × Nat)) (c : Char) : Bool :=
  ranges.any fun r => r.1 ≤ c.toNat && c.toNat ≤ r.2

/-- Characters that have case. -/
def isCased (c : Char) : Bool := inRanges casedRanges c

/-- Characters that are skipped when the neighbours of a letter are looked at. -/
def isIgnorable (c : Char) : Bool := inRanges ignorableRanges c

/-- The small letter of a capital one; other characters are themselves. -/
def lowerChar (c : Char) : Char :=
  let n := c.toNat
  match lowerRuns.find? fun r => r.1 ≤ n && n ≤ r.2.1 && (n - r.1) % r.2.2.1 == 0 with
  | some r => Char.ofNat ((n : Int) + r.2.2.2).toNat
  | none => c

/-- Whether the first character that is not skipped has case. -/
def meetsCased (t : Text) : Bool :=
  match t.dropWhile isIgnorable with
  | c :: _ => isCased c
  | [] => false

/-- The small letters of a text; `before` holds the characters before it, last one first. -/
def lowerFrom (before : Text) : Text → Text
  | [] => []
  | c :: t =>
    let small :=
      if c.toNat = 0x3A3 then
        [Char.ofNat (if meetsCased before && !meetsCased t then 0x3C2 else 0x3C3)]
      else if c.toNat = 0x130 then ['i', Char.ofNat 0x307]
      else [lowerChar c]
    small ++ lowerFrom (c :: before) t

end Case

/-- A text in small letters. -/
def lower (t : Text) : Text := Case.lowerFrom [] t

end IsolatedSite.Text
