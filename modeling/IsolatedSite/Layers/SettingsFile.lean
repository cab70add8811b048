/-
# The settings file

A settings file is looked up by its name without an ending, in the working directory.  A file of
exactly that name counts as well, if its own ending is known.  A file that is not there, cannot
be read or does not hold text counts as none.

The notations are TOML, JSON and YAML; files in INI, RON and JSON5 are not looked for.
-/
import IsolatedSite.Document.Json
import IsolatedSite.Document.Toml
import IsolatedSite.Document.Yaml
import IsolatedSite.Files.Tree
import IsolatedSite.Text.Utf8

namespace IsolatedSite

/-- The notation of a settings file. -/
inductive SettingsFormat where
  | toml
  | json
  | yaml
  deriving DecidableEq, Repr

/-- How texts are read in each notation. -/
abbrev SettingsFormat.Reader := SettingsFormat → Text → Option Document

/-- The document that a text spells in a notation. -/
def SettingsFormat.read? : SettingsFormat.Reader
  | .toml => Document.Toml.read?
  | .json => Document.Json.read?
  | .yaml => Document.Yaml.read?

/-- A settings file: its name as messages show it, its notation and its content. -/
structure SettingsFile where
  name : Text
  format : SettingsFormat
  content : Text
  deriving DecidableEq, Repr

namespace SettingsFile

/-- The endings of settings files, in the order in which they are looked for. -/
def endings : List (Bytes × SettingsFormat) :=
  [(ascii "toml", .toml), (ascii "json", .json), (ascii "yaml", .yaml), (ascii "yml", .yaml)]

/-- The path and notation of the file that a path without ending stands for. -/
def place? (t : Files.Tree) (who : Files.Caller) (p : Path) : Option (Path × SettingsFormat) :=
  if t.isFile who [] p then
    ((Path.extension? p).bind fun e => endings.lookup e).map fun f => (p, f)
  else
    endings.findSome? fun e =>
      ((Path.withEnding? p e.1).filter (t.isFile who [])).map fun q => (q, e.2)

/-- The settings file with a given name, seen from a working directory. -/
def find? (t : Files.Tree) (who : Files.Caller) (cwd : Files.Location) (name : Text) :
    Option SettingsFile := do
  let here := Files.Tree.pathOf cwd
  let (path, format) ← place? t who (Path.join here (Utf8.encode name))
  let octets ← (t.read who [] path).toOption
  let content ← Utf8.decode? octets
  some ⟨Utf8.decodeLossy (Path.seenFrom path here), format, content⟩

end SettingsFile

end IsolatedSite
