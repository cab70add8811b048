/-
# Requests

A request that can be answered: a method, a target that was read, a version and fields.
`Inquiry` is the part of it that decides about a file.
-/
import IsolatedSite.Http.Fields
import IsolatedSite.Http.Head
import IsolatedSite.Http.Target

namespace IsolatedSite.Site

open IsolatedSite.Http

/-- A request. -/
structure Request where
  method : Bytes
  target : Target
  version : Version
  fields : Fields
  deriving DecidableEq, Repr

/-- The method that asks for a representation. -/
def methodGet : Bytes := ascii "GET"

/-- The method that asks for everything but the body. -/
def methodHead : Bytes := ascii "HEAD"

/-- What a request asks of a file: the path with its escapes, the query, and under which
conditions. -/
structure Inquiry where
  path : Text
  query : Option Text
  isHead : Bool
  ifModifiedSince : Option Text
  hasIfNoneMatch : Bool
  deriving DecidableEq, Repr

/-- The inquiry of a request. -/
def Inquiry.ofRequest (r : Request) : Inquiry where
  path := r.target.path
  query := r.target.query
  isHead := r.method == methodHead
  ifModifiedSince := r.fields.firstText? (ascii "if-modified-since")
  hasIfNoneMatch := r.fields.has (ascii "if-none-match")

/-- Puts a request together from a method, a target and fields, if they are well formed. -/
inductive Malformed where
  | request
  | field (fault : Fields.Fault)
  deriving DecidableEq, Repr

/-- The request that texts spell.  The first line is judged before the fields. -/
def Request.ofParts? (method target : Bytes) (fields : List (Bytes × Bytes)) :
    Except Malformed Request :=
  match isToken method, Target.parse? target with
  | true, some t => match Fields.ofPairs? fields [] with
    | .ok fs => .ok ⟨method, t, .http11, fs⟩
    | .error fault => .error (.field fault)
  | _, _ => .error .request

end IsolatedSite.Site
