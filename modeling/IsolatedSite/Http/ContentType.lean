/-
# Content types

The type of a file is read off its extension, in any case of ASCII letters.
-/
import IsolatedSite.Path
import IsolatedSite.Text.Utf8

namespace IsolatedSite.Http.ContentType

/-- The type of a file that nothing is known about. -/
def unknown : String := "application/octet-stream"

/-- The types of the known extensions. -/
def table : List (String × String) :=
  [("html", "text/html; charset=utf-8"), ("htm", "text/html; charset=utf-8"),
   ("css", "text/css"),
   ("txt", "text/plain; charset=utf-8"), ("md", "text/plain; charset=utf-8"),
   ("csv", "text/csv"), ("xml", "application/xml"),
   ("js", "text/javascript"), ("mjs", "text/javascript"),
   ("json", "application/json"), ("map", "application/json"),
   ("wasm", "application/wasm"),
   ("png", "image/png"), ("jpg", "image/jpeg"), ("jpeg", "image/jpeg"), ("gif", "image/gif"),
   ("svg", "image/svg+xml"), ("ico", "image/vnd.microsoft.icon"), ("webp", "image/webp"),
   ("avif", "image/avif"),
   ("mp4", "video/mp4"), ("webm", "video/webm"), ("ogv", "video/ogg"),
   ("mp3", "audio/mpeg"), ("wav", "audio/x-wav"), ("ogg", "audio/ogg"), ("oga", "audio/ogg"),
   ("flac", "audio/flac"),
   ("woff", "font/woff"), ("woff2", "font/woff2"), ("ttf", "font/ttf"), ("otf", "font/otf"),
   ("pdf", "application/pdf"), ("zip", "application/zip"), ("gz", "application/gzip"),
   ("tar", "application/x-tar")]

/-- The type of a lower-case extension. -/
def ofExtension (extension : Text) : Text :=
  (((table.map fun p => (p.1.toList, p.2)).lookup extension).getD unknown).toList

/-- The type of a file, by the last component of its path. -/
def ofPath (path : Bytes) : Text :=
  match (Path.extension? path).bind Utf8.decode? with
  | some e => ofExtension (e.map Char.toLower)
  | none => unknown.toList

end IsolatedSite.Http.ContentType
