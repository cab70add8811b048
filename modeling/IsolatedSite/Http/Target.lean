/-
# Request targets

What the first line of a request asks for: a path and query (`/a?b`), the same behind a scheme
and an authority (`http://host/a?b`), an authority alone, or `*`.  Only the path and the query
are kept; a fragment is dropped unread.
-/
import IsolatedSite.Http.Token
import IsolatedSite.Text.Utf8

namespace IsolatedSite.Http

/-- A request target.  The path of a lone authority is empty. -/
structure Target where
  path : Text
  query : Option Text
  deriving DecidableEq, Repr

namespace Target

/-- The longest target that is read. -/
def maxLength : Nat := 65534

/-! ## 1. Path and query -/

/-- The octets of a path.  Quotation marks and braces should be escaped but are let through. -/
def isPathByte (b : UInt8) : Bool :=
  b == 0x21 || b == 0x22 || (0x24 ≤ b && b ≤ 0x3B) || b == 0x3D || (0x40 ≤ b && b ≤ 0x5F) ||
    (0x61 ≤ b && b ≤ 0x7E) || 0x80 ≤ b

/-- The octets of a query. -/
def isQueryByte (b : UInt8) : Bool :=
  b == 0x21 || (0x24 ≤ b && b ≤ 0x3B) || b == 0x3D || (0x3F ≤ b && b ≤ 0x7E) || 0x80 ≤ b

/-- The octets up to a `#`. -/
def beforeFragment (b : Bytes) : Bytes := b.takeWhile (· != 35)

/-- A path with an optional query and fragment.  An empty path is `/`. -/
def pathAndQuery? (b : Bytes) : Option Target := do
  let kept := beforeFragment b
  let (path, query) := match cutAt 63 kept with
    | some (p, q) => (p, some q)
    | none => (kept, none)
  if ¬ path.all isPathByte ∨ ¬ (query.getD []).all isQueryByte then none
  let path ← Utf8.decode? path
  let query ← query.mapM Utf8.decode?
  some ⟨if path = [] then ['/'] else path, query⟩

/-! ## 2. Schemes -/

/-- The octets of a scheme. -/
def isSchemeByte (b : UInt8) : Bool :=
  Byte.isAlnum b || b == 43 || b == 45 || b == 46 || b == 126

/-- The rest behind `://`. -/
def afterMark? : Bytes → Option Bytes
  | 58 :: 47 :: 47 :: rest => some rest
  | _ => none

/-- The scheme that a text begins with. -/
inductive Scheme where
  /-- None, so that the text has to be an authority. -/
  | missing
  /-- One, and what follows its `://`. -/
  | before (rest : Bytes)
  /-- More than 64 octets of it. -/
  | tooLong
  deriving DecidableEq, Repr

/-- The longest scheme that is read. -/
def maxSchemeLength : Nat := 64

/-- Cuts off the scheme.  A text of up to three octets has none. -/
def scheme (b : Bytes) : Scheme :=
  let name := b.takeWhile isSchemeByte
  match afterMark? (b.drop name.length) with
  | none => .missing
  | some rest =>
    if b.length ≤ 3 then .missing
    else if maxSchemeLength < name.length then .tooLong else .before rest

/-! ## 3. Authorities -/

/-- The octets of an authority, percent signs apart. -/
def isAuthorityByte (b : UInt8) : Bool :=
  Byte.isAlnum b || (ascii "!#$&'()*+,-./:;=?@[]_~").contains b

/-- The octets that end an authority. -/
def endsAuthority (b : UInt8) : Bool := b == 47 || b == 63 || b == 35

/-- What has been seen of an authority: the colons and percent signs count from the last `@` or
`]` on. -/
structure Seen where
  colons : Nat := 0
  opened : Bool := false
  closed : Bool := false
  percent : Bool := false
  deriving DecidableEq, Repr

/-- One octet of an authority. -/
def Seen.step? (s : Seen) (b : UInt8) : Option Seen :=
  if b = 58 then (if 8 ≤ s.colons then none else some { s with colons := s.colons + 1 })
  else if b = 91 then (if s.percent ∨ s.opened then none else some { s with opened := true })
  else if b = 93 then
    (if ¬ s.opened ∨ s.closed then none
     else some { s with closed := true, colons := 0, percent := false })
  else if b = 64 then some { s with colons := 0, percent := false }
  else if b = 37 then some { s with percent := true }
  else if isAuthorityByte b then some s else none

/-- Whether a text is well formed as an authority; it may be empty. -/
def isAuthority (b : Bytes) : Bool :=
  match b.foldlM Seen.step? {} with
  | none => false
  | some s => s.opened == s.closed && s.colons ≤ 1 && !s.percent && b.getLast? != some 64

/-! ## 4. The whole -/

/-- The target that a text spells. -/
def parse? (b : Bytes) : Option Target :=
  if b = [] ∨ maxLength < b.length then none
  else if b = [42] then some ⟨['*'], none⟩
  else if b.head? = some 47 then pathAndQuery? b
  else match scheme b with
    | .tooLong => none
    | .missing => if ¬ b.any endsAuthority ∧ isAuthority b then some ⟨[], none⟩ else none
    | .before rest =>
      let authority := rest.takeWhile fun x => ! endsAuthority x
      if authority = [] ∨ ¬ isAuthority authority then none
      else pathAndQuery? (rest.drop authority.length)

end Target

end IsolatedSite.Http
