/-
# Handling a request

Handling collects the notices for the error log in the order in which they come up, and may stop
early: with an error page, or, where a file's date has no text, without any answer at all.
-/
import IsolatedSite.Http.Answer
import IsolatedSite.Notice

namespace IsolatedSite.Site

open IsolatedSite.Http

/-- Why a request is not answered with what it asks for. -/
inductive Failure where
  | notFound
  | forbidden
  | listingDenied
  /-- A modification date lies outside the years that dates are kept for; the request is dropped. -/
  | undatable
  deriving DecidableEq, Repr

/-- The status and message of the error page; there is none for a dropped request. -/
def Failure.page? : Failure → Option (Status × Text)
  | .notFound => some (.notFound, "File not found".toList)
  | .forbidden => some (.forbidden, "Forbidden".toList)
  | .listingDenied => some (.notFound, "No permission to list directory".toList)
  | .undatable => none

/-- A result or the failure that stood in its way, and the notices on the way there. -/
structure Handling (α : Type) where
  result : Except Failure α
  notices : List Notice

namespace Handling

variable {α β : Type}

/-- A result without notices. -/
def done (a : α) : Handling α := ⟨.ok a, []⟩

/-- A failure. -/
def fail (e : Failure) : Handling α := ⟨.error e, []⟩

/-- A failure that is noted. -/
def failWith (n : Notice) (e : Failure) : Handling α := ⟨.error e, [n]⟩

/-- Goes on with a result. -/
def andThen (h : Handling α) (next : α → Handling β) : Handling β :=
  match h.result with
  | .error e => ⟨.error e, h.notices⟩
  | .ok a => ⟨(next a).result, h.notices ++ (next a).notices⟩

instance : Monad Handling where
  pure := done
  bind := andThen

/-- A result that may be missing. -/
def orFail (e : Failure) : Option α → Handling α
  | some a => done a
  | none => fail e

/-- An answer, with a notice if it could not be built. -/
def ofBuilt (b : Built) : Handling Response :=
  ⟨.ok b.response, b.failed.toList.map Notice.unbuildable⟩

/-- The answer of the file system about a path.  What is missing is not found, what is protected
is forbidden, and everything else is noted and counts as not found. -/
def ofFiles (path : Path) : Except Files.OsError α → Handling α
  | .ok a => done a
  | .error .notFound => fail .notFound
  | .error .permissionDenied => fail .forbidden
  | .error e => failWith (.inaccessible path e) .notFound

end Handling

end IsolatedSite.Site
