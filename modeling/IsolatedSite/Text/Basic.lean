/-
# Bytes and characters

Everything that crosses a connection, the file tree or a log is a list.  `Bytes` is what is
stored and sent, `Text` is what is decoded and composed; each module says which of the two it
works on.  This file holds the two types and the handful of list operations that the others
share: cutting at a separator, trimming at both ends, and the ASCII part of the byte range.
-/
namespace IsolatedSite

/-! ## 1. The two kinds of string -/

/-- Octets as they are stored or sent. -/
abbrev Bytes := List UInt8

/-- Unicode characters. -/
abbrev Text := List Char

/-- The octets of a literal that holds ASCII characters only. -/
def ascii (s : String) : Bytes := s.toList.map fun c => c.toNat.toUInt8

/-- The characters of octets that are known to be ASCII. -/
def asciiText (b : Bytes) : Text := b.map fun x => Char.ofNat x.toNat

/-! ## 2. Octet classes -/

namespace Byte

/-- Carriage return. -/
def cr : UInt8 := 13

/-- Line feed. -/
def lf : UInt8 := 10

/-- Horizontal tab. -/
def tab : UInt8 := 9

/-- The space character. -/
def space : UInt8 := 32

/-- `0` to `9`. -/
def isDigit (b : UInt8) : Bool := 48 ≤ b && b ≤ 57

/-- `A` to `Z`. -/
def isUpper (b : UInt8) : Bool := 65 ≤ b && b ≤ 90

/-- `a` to `z`. -/
def isLower (b : UInt8) : Bool := 97 ≤ b && b ≤ 122

/-- An ASCII letter or digit. -/
def isAlnum (b : UInt8) : Bool := isDigit b || isUpper b || isLower b

/-- The ASCII lower case of an octet; every other octet is itself. -/
def toLower (b : UInt8) : UInt8 := if isUpper b then b + 32 else b

/-- The ASCII upper case of an octet; every other octet is itself. -/
def toUpper (b : UInt8) : UInt8 := if isLower b then b - 32 else b

end Byte

/-- Two byte strings that differ in the case of ASCII letters at most. -/
def sameIgnoringCase (a b : Bytes) : Bool := a.map Byte.toLower == b.map Byte.toLower

/-! ## 3. Cutting lists -/

/-- The parts before and after the first `sep`, or nothing if there is none. -/
def cutAt {α : Type} [DecidableEq α] (sep : α) : List α → Option (List α × List α)
  | [] => none
  | x :: xs =>
    if x = sep then some ([], xs) else (cutAt sep xs).map fun p => (x :: p.1, p.2)

/-- The pieces between the separators: always one more than there are separators. -/
def splitAtEach {α : Type} [DecidableEq α] (sep : α) : List α → List (List α)
  | [] => [[]]
  | x :: xs =>
    if x = sep then [] :: splitAtEach sep xs
    else match splitAtEach sep xs with
      | [] => [[x]]
      | p :: ps => (x :: p) :: ps

/-- What follows the last `sep`; the whole list if there is none. -/
def afterLast {α : Type} [DecidableEq α] (sep : α) (xs : List α) : List α :=
  (xs.reverse.takeWhile fun x => x ≠ sep).reverse

/-- Drops the elements that satisfy `p` from the end. -/
def trimEnd {α : Type} (p : α → Bool) (xs : List α) : List α :=
  (xs.reverse.dropWhile p).reverse

/-- Drops the elements that satisfy `p` from both ends. -/
def trimBoth {α : Type} (p : α → Bool) (xs : List α) : List α := trimEnd p (xs.dropWhile p)

/-- The rest of a list after a given beginning. -/
def afterStart? {α : Type} [DecidableEq α] : List α → List α → Option (List α)
  | [], xs => some xs
  | _ :: _, [] => none
  | p :: ps, x :: xs => if p = x then afterStart? ps xs else none

/-- Replaces every occurrence of a non-empty `old` by `new`, from the left, without looking into
what was put in; `skip` elements belong to an occurrence that was already replaced. -/
def replaceFrom {α : Type} [DecidableEq α] (old new : List α) : (skip : Nat) → List α → List α
  | _, [] => []
  | skip + 1, _ :: xs => replaceFrom old new skip xs
  | 0, x :: xs =>
    if old.isPrefixOf (x :: xs) then new ++ replaceFrom old new (old.length - 1) xs
    else x :: replaceFrom old new 0 xs

/-- Replaces every occurrence of a non-empty `old` by `new`. -/
def replaceAll {α : Type} [DecidableEq α] (old new xs : List α) : List α :=
  replaceFrom old new 0 xs

/-- The lines of texts that stand one below the other; a line feed in a text begins a new one. -/
def Text.lines (ts : List Text) : List Text := ts.flatMap (splitAtEach '\n')

/-- The pieces with `sep` between them. -/
def joinWith {α : Type} (sep : List α) : List (List α) → List α
  | [] => []
  | [p] => p
  | p :: q :: ps => p ++ sep ++ joinWith sep (q :: ps)

end IsolatedSite
