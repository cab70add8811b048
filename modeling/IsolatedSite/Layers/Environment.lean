/-
# Settings from the environment

A variable whose name begins with `COI_SERVE_`, in any case, sets what the rest of its name leads
to; two underscores stand for a step into a table.  Its value is a truth value or a number if it
reads as one, and a text otherwise.
-/
import IsolatedSite.Layers.KeyPath
import IsolatedSite.Number.Reading

namespace IsolatedSite.Environment

/-- A variable: its name and its value. -/
abbrev Variable := Text × Text

/-- What the names of variables that set something begin with, in small letters. -/
def mark : Text := "coi_serve_".toList

/-- The key that a variable of a given name sets. -/
def key? (name : Text) : Option Text :=
  (afterStart? mark (Text.lower name)).map (replaceAll ['_', '_'] ['.'])

/-- Where the values come from, as messages say it. -/
def origin : Option Text := some "the environment".toList

/-- The value that a text stands for. -/
def valueOf (t : Text) : Value :=
  let small := Text.lower t
  if small = "true".toList then .bool true origin
  else if small = "false".toList then .bool false origin
  else match Decimal.signed64? t, Number.Binary64.read? t with
    | some n, _ => .int n origin
    | none, some x => .float x origin
    | none, none => .text t origin

/-- The settings that the environment makes: keys and values, in the order of the variables. -/
def settings (vars : List Variable) : List (Text × Value) :=
  vars.filterMap fun v => (key? v.1).map fun key => (key, valueOf v.2)

end IsolatedSite.Environment
