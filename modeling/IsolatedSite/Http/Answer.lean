/-
# The answers of the server

One builder for each shape of answer: a file, "not modified", a redirect, a generated page and an
error page.  A builder fails when a text does not fit into a header field; the answer is then an
empty one, and `Built` says which one failed so that it can be logged.
-/
import IsolatedSite.Http.Response
import IsolatedSite.Text.Html
import IsolatedSite.Text.Utf8

namespace IsolatedSite.Http

/-- The type of generated pages. -/
def htmlType : Text := "text/html; charset=utf-8".toList

/-! ## 1. Building -/

/-- An answer, and the name of the shape if it could not be built. -/
structure Built where
  response : Response
  failed : Option Text
  deriving DecidableEq, Repr

/-- Builds an answer from names and texts; `fallback` is the status of the empty answer that
stands in when a text is no field value. -/
def build (shape : Text) (status fallback : Status) (fields : List (Bytes × Text)) (body : Bytes) :
    Built :=
  let encoded := fields.map fun f => (f.1, Utf8.encode f.2)
  if encoded.all fun f => f.2.all isValueByte then ⟨⟨status, encoded, body⟩, none⟩
  else ⟨⟨fallback, [], []⟩, some shape⟩

def contentType : Bytes := ascii "content-type"
def contentLength : Bytes := ascii "content-length"
def lastModified : Bytes := ascii "last-modified"
def location : Bytes := ascii "location"

/-- A body, which the answer to `HEAD` leaves out. -/
def bodyUnless (isHead : Bool) (body : Bytes) : Bytes := if isHead then [] else body

/-! ## 2. The shapes -/

/-- A file with its type and modification date. -/
def fileAnswer (content : Bytes) (type modified : Text) (isHead : Bool) : Built :=
  build "200".toList .ok .ok
    [(contentType, type), (contentLength, Decimal.ofNat content.length), (lastModified, modified)]
    (bodyUnless isHead content)

/-- The file has not changed since the client got it. -/
def notModifiedAnswer (modified : Text) : Built :=
  build "304".toList .notModified .ok [(lastModified, modified)] []

/-- The same thing is to be asked for under another path. -/
def redirectAnswer (target : Text) : Built :=
  build "301".toList .movedPermanently .ok [(location, target), (contentLength, ['0'])] []

/-- A generated page. -/
def pageAnswer (page : Text) (isHead : Bool) : Built :=
  let content := Utf8.encode page
  build "HTML".toList .ok .ok
    [(contentType, htmlType), (contentLength, Decimal.ofNat content.length)]
    (bodyUnless isHead content)

/-! ## 3. Error pages -/

/-- What an error means, for people. -/
def explanation (s : Status) : String :=
  match s.code with
  | 400 => "The request could not be understood"
  | 403 => "The server refuses to serve this path"
  | 404 => "No file or directory matches the requested URL"
  | 405 | 501 => "The server only supports GET and HEAD requests"
  | _ => "The request could not be completed"

/-- The reason phrase that a page shows. -/
def shownReason (s : Status) : Text := s.reason?.getD "Error".toList

/-- The page of an error. -/
def errorPage (s : Status) (message : Text) : Text :=
  let code := Decimal.ofNat s.code
  "<!DOCTYPE html>\n<html lang=\"en\">\n<head>\n<meta charset=\"utf-8\">\n<title>Error ".toList ++
    code ++ "</title>\n</head>\n<body>\n<h1>".toList ++ code ++ ' ' :: shownReason s ++
    "</h1>\n<p>".toList ++ Html.escape message ++ ".</p>\n<p>".toList ++
    (explanation s).toList ++ ".</p>\n</body>\n</html>\n".toList

/-- An error page; without a message it repeats the reason phrase. -/
def errorAnswer (s : Status) (message : Option Text) (isHead : Bool) : Built :=
  let content := Utf8.encode (errorPage s (message.getD (shownReason s)))
  build (Decimal.ofNat s.code) s s
    [(contentType, htmlType), (contentLength, Decimal.ofNat content.length)]
    (bodyUnless isHead content)

end IsolatedSite.Http
