/-
# Cross-origin isolation

A browser grants shared memory and precise timers only to documents that are cross-origin
isolated, a state that three response headers ask for.  `isolate` puts them on any response:
each is there exactly once, with the fixed value, and nothing else changes.
-/
import IsolatedSite.Http.Fields

namespace IsolatedSite.Http

/-- The three headers, in the order in which they are added. -/
def isolationFields : Fields :=
  [(ascii "cross-origin-opener-policy", ascii "same-origin"),
   (ascii "cross-origin-embedder-policy", ascii "require-corp"),
   (ascii "cross-origin-resource-policy", ascii "cross-origin")]

/-- Sets the three headers. -/
def Fields.isolate (fs : Fields) : Fields :=
  isolationFields.foldl (fun acc f => acc.set f.1 f.2) fs

end IsolatedSite.Http
