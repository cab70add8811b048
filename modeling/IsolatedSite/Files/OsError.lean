/-
# Failures of the file system

What can go wrong with a path, with the name of the kind of failure and the message that the
operating system has for it.
-/
import IsolatedSite.Text.Basic

namespace IsolatedSite.Files

/-- Why the file system refuses an operation. -/
inductive OsError where
  | notFound
  | permissionDenied
  | alreadyExists
  | notADirectory
  | isADirectory
  | notEmpty
  | nameTooLong
  | tooManyLinks
  /-- The path holds a NUL, so the operating system is not even asked. -/
  | nulInPath
  deriving DecidableEq, Repr

/-- The kind of failure. -/
def OsError.kind : OsError → String
  | .notFound => "NotFound"
  | .permissionDenied => "PermissionDenied"
  | .alreadyExists => "AlreadyExists"
  | .notADirectory => "NotADirectory"
  | .isADirectory => "IsADirectory"
  | .notEmpty => "DirectoryNotEmpty"
  | .nameTooLong => "InvalidFilename"
  | .tooManyLinks => "FilesystemLoop"
  | .nulInPath => "InvalidInput"

/-- The message. -/
def OsError.message : OsError → String
  | .notFound => "No such file or directory (os error 2)"
  | .permissionDenied => "Permission denied (os error 13)"
  | .alreadyExists => "File exists (os error 17)"
  | .notADirectory => "Not a directory (os error 20)"
  | .isADirectory => "Is a directory (os error 21)"
  | .notEmpty => "Directory not empty (os error 39)"
  | .nameTooLong => "File name too long (os error 36)"
  | .tooManyLinks => "Too many levels of symbolic links (os error 40)"
  | .nulInPath => "file name contained an unexpected NUL byte"

end IsolatedSite.Files
