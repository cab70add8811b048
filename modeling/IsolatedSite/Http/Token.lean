/-
# Octet classes of the HTTP grammar

Tokens name methods and header fields.  A field value may hold anything but control characters;
it can be shown as text when it holds visible ASCII, spaces and tabs only.
-/
import IsolatedSite.Text.Basic

namespace IsolatedSite.Http

/-- The octets of a token. -/
def isTokenByte (b : UInt8) : Bool :=
  Byte.isAlnum b || (ascii "!#$%&'*+-.^_|~").contains b || b == 96

/-- A method or field name: one token octet at least. -/
def isToken (b : Bytes) : Bool := !b.isEmpty && b.all isTokenByte

/-- The octets of a field value. -/
def isValueByte (b : UInt8) : Bool := b == Byte.tab || (32 ≤ b && b != 127)

/-- The octets of a field value that is plain text. -/
def isVisibleByte (b : UInt8) : Bool := b == Byte.tab || (32 ≤ b && b ≤ 126)

/-- Spaces and tabs. -/
def isPad (b : UInt8) : Bool := b == Byte.space || b == Byte.tab

/-- A field value as text, if it is plain text. -/
def visibleText? (value : Bytes) : Option Text :=
  if value.all isVisibleByte then some (asciiText value) else none

end IsolatedSite.Http
