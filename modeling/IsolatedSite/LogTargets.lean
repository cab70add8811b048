/-
# Where logs go

Each of the two logs goes to a file that it is appended to, or else to the error output.  The
folders above a file are made when it is opened.
-/
import IsolatedSite.Files.Change
import IsolatedSite.Settings
import IsolatedSite.Text.Utf8

namespace IsolatedSite

/-- Where lines of a log go. -/
inductive LogTarget where
  | errorOutput
  /-- The file at an absolute path. -/
  | file (path : Path)
  deriving DecidableEq, Repr

/-- Where both logs go. -/
structure LogTargets where
  access : LogTarget
  error : LogTarget
  deriving DecidableEq, Repr

/-- Where files are opened: who does it, from which folder, and what new files look like. -/
structure Workplace where
  caller : Files.Caller
  folder : Files.Location
  modes : Files.NewModes
  now : Calendar.Instant
  deriving DecidableEq, Repr

namespace LogTarget

/-- Opens the target that a setting names; a file that is there keeps its content. -/
def open? (w : Workplace) (t : Files.Tree) : Option Text →
    Except Files.OsError (Files.Tree × LogTarget)
  | none => .ok (t, .errorOutput)
  | some name => do
    let p := Utf8.encode name
    let t ← t.makeAbove w.caller w.modes w.folder p
    let t ← match t.stat w.caller w.folder p with
      | .ok (.file _ _ mode) =>
        if w.caller.may .write mode then .ok t else .error .permissionDenied
      | _ => t.edit w.caller w.modes w.folder p id w.now
    .ok (t, .file (Path.join (Files.Tree.pathOf w.folder) p))

end LogTarget

/-- Opens both logs, the access log first. -/
def LogTargets.open? (w : Workplace) (t : Files.Tree) (s : LoggingSettings) :
    Except Files.OsError (Files.Tree × LogTargets) := do
  let (t, access) ← LogTarget.open? w t s.accessLogFile
  let (t, error) ← LogTarget.open? w t s.errorLogFile
  .ok (t, ⟨access, error⟩)

end IsolatedSite
