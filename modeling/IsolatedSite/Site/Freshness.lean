/-
# Files that have not changed

A client that says since when it has a file gets it again only if the file is younger.  A client
that also has a tag is always sent the file, since no tags are given out.
-/
import IsolatedSite.Calendar.HttpDate
import IsolatedSite.Calendar.MailDate

namespace IsolatedSite.Site

/-- Whether a file is no younger than the date that a client named.  There is no answer for a
file of a year that dates are not kept for. -/
def isNotModified? (since : Option Text) (hasTag : Bool) (modified : Calendar.Instant) :
    Option Bool :=
  match hasTag, since.bind Calendar.MailDate.read? with
  | true, _ | _, none => some false
  | false, some seconds =>
    if modified.isKnown then some (modified.seconds ≤ seconds) else none

end IsolatedSite.Site
