/-
# Why settings cannot be loaded

The causes, and the words for them.  A value of the wrong type is named with its key and, where
it was written somewhere, its origin; a value of the wrong shape stands where a section or a list
belongs.
-/
import IsolatedSite.Layers.KeyPath
import IsolatedSite.Number.Shortest
import IsolatedSite.Text.Quoted

namespace IsolatedSite

/-! ## 1. Keys -/

/-- A step as it is written behind other ones. -/
def KeyStep.text : KeyStep → Text
  | .name key => '.' :: key
  | .position n => '[' :: Decimal.ofInt n ++ [']']

/-- A path as it is written. -/
def KeyPath.text : KeyPath → Text
  | .name key :: path => key ++ path.flatMap KeyStep.text
  | path => path.flatMap KeyStep.text

namespace Settings

/-! ## 2. What was found and what was expected -/

/-- What stands in the wrong place. -/
inductive Found where
  | null
  | bool (b : Bool)
  | int (n : Int)
  | unsigned (n : Nat)
  | float (x : Number.Binary64)
  | text (t : Text)
  | list
  | table
  deriving DecidableEq, Repr

/-- A value as something found. -/
def Found.ofValue : Value → Found
  | .null _ => .null
  | .bool b _ => .bool b
  | .int n _ => .int n
  | .float x _ => .float x
  | .text t _ => .text t
  | .list .. => .list
  | .table .. => .table

/-- A truth value as a word. -/
def boolText (b : Bool) : Text := if b then "true".toList else "false".toList

/-- A number in marks, behind what it is. -/
def marked (what : String) (t : Text) : Text := what.toList ++ " \x60".toList ++ t ++ ['\x60']

/-- The words for what was found. -/
def Found.words : Found → Text
  | .null => "unit value".toList
  | .bool b => marked "boolean" (boolText b)
  | .int n => marked "64-bit integer" (Decimal.ofInt n)
  | .unsigned n => marked "64-bit unsigned integer" (Decimal.ofNat n)
  | .float x => marked "floating point" x.text
  | .text t => "string ".toList ++ Text.quoted t
  | .list => "sequence".toList
  | .table => "map".toList

/-- A floating-point number with a point in any case, if it is finite. -/
def pointed (x : Number.Binary64) : Text :=
  match x with
  | .finite .. => if '.' ∈ x.text then x.text else x.text ++ ".0".toList
  | _ => x.text

/-- The words for what was found where a shape was expected. -/
def Found.shapeWords : Found → Text
  | .int n => marked "integer" (Decimal.ofInt n)
  | .unsigned n => marked "integer" (Decimal.ofNat n)
  | .float x => marked "floating point" (pointed x)
  | f => f.words

/-- A type of values. -/
inductive Wanted where
  | text
  | bool
  | integer
  | unsigned64
  | unsigned16
  deriving DecidableEq, Repr

/-- The words for a type. -/
def Wanted.words : Wanted → Text
  | .text => "a string".toList
  | .bool => "a boolean".toList
  | .integer => "an integer".toList
  | .unsigned64 => "an unsigned 64 bit or less integer".toList
  | .unsigned16 => "an unsigned 16 bit integer".toList

/-- The sections of settings. -/
inductive Section where
  | server
  | serve
  | logging
  deriving DecidableEq, Repr

/-- The key of a section. -/
def Section.key : Section → Text
  | .server => "server".toList
  | .serve => "serve".toList
  | .logging => "logging".toList

/-- The keys in a section, in the order that they have where no keys are written. -/
def Section.fields : Section → List Text
  | .server => ["host".toList, "port".toList, "workers".toList, "server_name".toList]
  | .serve => ["root".toList, "index_files".toList, "directory_listing".toList]
  | .logging =>
    ["access_log".toList, "access_log_format".toList, "access_log_file".toList,
      "error_log_file".toList]

/-- The words for a section. -/
def Section.words : Section → Text
  | .server => "struct ServerConfig".toList
  | .serve => "struct ServeConfig".toList
  | .logging => "struct LoggingConfig".toList

/-! ## 3. Faults -/

/-- Why settings cannot be loaded. -/
inductive Fault where
  /-- A value of the wrong type. -/
  | type (found : Found) (wanted : Wanted) (key : KeyPath) (origin : Option Text)
  /-- Something else than the section. -/
  | noSection (found : Found) (wanted : Section)
  /-- Something else than a list. -/
  | noList (found : Found)
  /-- A section written as a list with too few items. -/
  | tooShort (length : Nat) (wanted : Section)
  | missing (key : KeyPath)
  /-- A file that does not read as a table. -/
  | file (name : Text)
  /-- A position that counts beyond the start of a list. -/
  | position (key : Text)
  deriving DecidableEq, Repr

/-- The words for a mismatch. -/
def mismatch (found wanted : Text) : Text :=
  "invalid type: ".toList ++ found ++ ", expected ".toList ++ wanted

/-- The message for a fault. -/
def Fault.message : Fault → Text
  | .type found wanted key origin =>
    mismatch found.words wanted.words ++ marked " for key" key.text ++
      match origin with
      | some o => " in ".toList ++ o
      | none => []
  | .noSection found wanted => mismatch found.shapeWords wanted.words
  | .noList found => mismatch found.shapeWords "a sequence".toList
  | .tooShort n wanted =>
    "invalid length ".toList ++ Decimal.ofNat n ++ ", expected ".toList ++ wanted.words ++
      " with ".toList ++ Decimal.ofNat wanted.fields.length ++ " elements".toList
  | .missing key => "missing configuration field ".toList ++ Text.quoted key.text
  | .file name => "cannot read ".toList ++ name
  | .position key => "index out of range in ".toList ++ key

end Settings

end IsolatedSite
