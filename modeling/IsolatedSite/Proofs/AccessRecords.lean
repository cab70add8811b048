/-
# The access log tells what was sent

An entry of the access log is put together from a request and an answer before either meets the
wire.  Here both are compared with the wire itself: the request with the head as it came in, fields
with their names in any case and one line after the other, and the answer with what a reader finds
in the octets that went out.

`access_log_tells_what_was_sent` goes through the ways in which a connection can end.  A head that
is passed on and handled leaves one entry, which describes the head (`Describes`) and the message on
the wire (`Measures`); no other connection leaves any.  A rejection leaves one notice, with the
status of the message on the wire.

That no body is sent for some kinds of answers (`SendsNoBody`) is a fact about the site, and the
entry then has no number of octets.
-/
import IsolatedSite.Proofs.BodylessReplies
import IsolatedSite.Proofs.Redirects

namespace IsolatedSite

open IsolatedSite.Http IsolatedSite.Http.Fields

/-! ## 1. The fields of a head under their names -/

namespace Connection

/-- The values that a head gives under a name, which may be written in any case. -/
def writtenValues (name : String) (h : Head) : List Bytes :=
  (h.fields.filter (Head.isNamed name)).map (·.2)

/-- What a head says under a name: its first value, if that is visible ASCII. -/
def headerText? (name : String) (h : Head) : Option Text :=
  (writtenValues name h).head?.bind visibleText?

/-- A name without capital letters stands for all its spellings. -/
theorem isNamed_iff {name : String} (hlower : (ascii name).map Byte.toLower = ascii name)
    (f : Bytes × Bytes) : Head.isNamed name f = true ↔ f.1.map Byte.toLower = ascii name := by
  rw [Head.isNamed, sameIgnoringCase, beq_iff_eq, hlower]

/-- Fields that are added one after the other stand under a name in the order in which they came.
The induction is on the fields, over what was added before them. -/
theorem valuesOf_foldl_add {name : String} (hlower : (ascii name).map Byte.toLower = ascii name)
    (fs : List (Bytes × Bytes)) (before : Fields) :
    valuesOf (ascii name) (fs.foldl (fun acc f => acc.add (f.1.map Byte.toLower) f.2) before) =
      valuesOf (ascii name) before ++ (fs.filter (Head.isNamed name)).map (·.2) := by
  induction fs generalizing before with
  | nil => simp
  | cons f fs ih =>
    rw [List.foldl_cons, ih]
    by_cases hf : Head.isNamed name f = true
    · have hname := (isNamed_iff hlower f).mp hf
      rw [hname, valuesOf_add_self, List.filter_cons_of_pos hf]
      simp
    · have hname : ascii name ≠ f.1.map Byte.toLower := by
        intro heq
        exact hf ((isNamed_iff hlower f).mpr heq.symm)
      rw [valuesOf_add_of_ne hname, List.filter_cons_of_neg hf]

theorem valuesOf_fieldsOf {name : String} (hlower : (ascii name).map Byte.toLower = ascii name)
    (h : Head) : valuesOf (ascii name) (fieldsOf h) = writtenValues name h := by
  rw [fieldsOf, valuesOf_foldl_add hlower, valuesOf_nil, List.nil_append, writtenValues]

/-- **The text of a field** in a request is what its head says. -/
theorem firstText?_fieldsOf {name : String} (hlower : (ascii name).map Byte.toLower = ascii name)
    (h : Head) : firstText? (ascii name) (fieldsOf h) = headerText? name h := by
  have hvalues := valuesOf_fieldsOf hlower h
  rw [firstText?, headerText?]
  cases hwritten : writtenValues name h with
  | nil =>
    have hnone : has (ascii name) (fieldsOf h) = false := by
      by_contra hhas
      exact has_iff.mp (Bool.of_not_eq_false hhas) (hvalues.trans hwritten)
    rw [first?_of_not_has hnone]
    rfl
  | cons value values =>
    rw [first?_of_valuesOf (hvalues.trans hwritten)]
    rfl

/-- A request has the parts of its head. -/
theorem exists_target_of_requestOf {h : Head} {q : Site.Request} (hacc : h.isAcceptable = true)
    (hq : requestOf h = .ok q) :
    ∃ t, Target.parse? h.target = some t ∧ q = ⟨h.method, t, h.version, fieldsOf h⟩ := by
  have hreadable : (Target.parse? h.target).isSome = true := by
    rw [Head.isAcceptable, Bool.and_eq_true, Bool.and_eq_true] at hacc
    exact hacc.1.1
  obtain ⟨t, ht⟩ := Option.isSome_iff_exists.mp hreadable
  unfold requestOf at hq
  split at hq
  · cases hq
  · cases hq
    exact ⟨t, ht, by rw [ht, Option.getD_some]⟩

end Connection

/-! ## 2. Answers without a body -/

namespace OpenSite

variable (site : OpenSite) (t : Files.Tree) (who : Files.Caller)

/-- The answers that never have a body: those to requests for a head, redirects, answers that
nothing has changed, and files without content. -/
inductive SendsNoBody (q : Site.Request) (r : Response) : Prop
  | headOnly : q.method = Site.methodHead → SendsNoBody q r
  | redirect : r.status = .movedPermanently → SendsNoBody q r
  | unchanged : r.status = .notModified → SendsNoBody q r
  | emptyFile {p : Path} : q.method = Site.methodGet → site.Selects t who (.ofRequest q) p →
      t.read who [] p = .ok [] → r.status = .ok → SendsNoBody q r

variable {site t who}

/-- **They have no body.** -/
theorem SendsNoBody.body_eq {q : Site.Request} {r : Response}
    (hnone : site.SendsNoBody t who q r) (hr : (site.answer t who q).response = some r) :
    r.body = [] := by
  have hsound := (isSound_of_answer hr).1
  cases hnone with
  | headOnly hmethod =>
    refine hsound.bodyless (Or.inl ?_)
    rw [asksForHead, hmethod, beq_self_eq_true]
  | redirect hstatus =>
    obtain ⟨-, -, rfl⟩ := isRedirected_of_answer hr hstatus
    rw [body_finished]
    rfl
  | unchanged hstatus =>
    refine hsound.bodyless (Or.inr ?_)
    rw [hstatus]
    decide
  | @emptyFile p hmethod hselects hread hstatus =>
    rw [response_answer (Or.inl hmethod), Option.map_eq_some_iff] at hr
    obtain ⟨inner, hinner, rfl⟩ := hr
    rw [status_finished] at hstatus
    obtain ⟨node, date, content, hsel, hcontent, rfl⟩ := hselects.sent hinner hstatus
    obtain rfl : content = [] := Except.ok.inj (hcontent.symm.trans hread)
    rw [body_finished, fileAnswer_eq [] (isPlain_ofPath p)
      (Calendar.isPlain_of_httpDate? hsel.dated)]
    cases (Site.Inquiry.ofRequest q).isHead <;> rfl

end OpenSite

/-! ## 3. Entries -/

namespace AccessEntry

open Connection

/-- An entry describes a head that came in: who sent it and when, and what it asks for. -/
structure Describes (w : Surroundings) (h : Head) (t : Target) (e : AccessEntry) : Prop where
  client : e.client = w.peer.text
  time : e.time = w.now
  microseconds : e.microseconds = w.microseconds
  method : e.method = asciiText h.method
  path : e.path = t.path
  query : e.query = t.query
  httpVersion : e.httpVersion = versionText h.version
  referer : e.referer = headerText? "referer" h
  userAgent : e.userAgent = headerText? "user-agent" h

/-- An entry has the status of a message and the number of the octets of its body, none if there
are no such octets. -/
structure Measures (r : Response) (e : AccessEntry) : Prop where
  status : e.status = r.status.code
  bodyBytes : e.bodyBytes = if r.body.length = 0 then none else some r.body.length

theorem describes_entryOf {w : Surroundings} {h : Head} {t : Target} (r : Response) :
    Describes w h t (entryOf w ⟨h.method, t, h.version, fieldsOf h⟩ r) where
  client := rfl
  time := rfl
  microseconds := rfl
  method := rfl
  path := rfl
  query := rfl
  httpVersion := rfl
  referer := firstText?_fieldsOf (by decide) h
  userAgent := firstText?_fieldsOf (by decide) h

/-- An entry measures every message with the status and the body of its answer. -/
theorem measures_entryOf (w : Surroundings) (q : Site.Request) {r sent : Response}
    (hstatus : sent.status = r.status) (hbody : sent.body = r.body) :
    Measures sent (entryOf w q r) := by
  refine ⟨hstatus ▸ rfl, ?_⟩
  rw [hbody, entryOf]
  simp only [List.length_eq_zero_iff]

end AccessEntry

/-! ## 4. Connections -/

namespace Connection

/-- A head is handled if it makes a request that the site answers. -/
def IsHandled (site : OpenSite) (w : Surroundings) (h : Head) : Prop :=
  ∃ q r, requestOf h = .ok q ∧ (site.answer w.tree w.caller q).response = some r

/-- What a head that was handled leaves on the wire and in the access log. -/
structure IsRecorded (site : OpenSite) (w : Surroundings) (f : AccessFormat) (h : Head)
    (o : Outcome) (e : AccessEntry) (sent : Response) : Prop where
  read : Response.read? o.sent = some sent
  line : o.accessLines = [e.line f]
  describes : ∃ t, Target.parse? h.target = some t ∧ e.Describes w h t
  measures : e.Measures sent
  noBody : ∀ q, requestOf h = .ok q → site.SendsNoBody w.tree w.caller q sent →
    e.bodyBytes = none

/-- **A head that is handled is recorded.** -/
theorem exists_isRecorded {site : OpenSite} {f : AccessFormat} (hlog : site.accessLog = some f)
    {w : Surroundings} {h : Head} (hacc : h.isAcceptable = true) (hhandled : IsHandled site w h) :
    ∃ e sent, IsRecorded site w f h (serveHead site w h) e sent := by
  obtain ⟨q, r, hq, hr⟩ := hhandled
  obtain ⟨t, ht, rfl⟩ := exists_target_of_requestOf hacc hq
  have hone := isOneResponse_message (OpenSite.isSound_of_answer hr).1 w h.version
  have hserve : serveHead site w h = ⟨message w h.version r,
      [AccessEntry.line f (entryOf w ⟨h.method, t, h.version, fieldsOf h⟩ r)],
      (site.answer w.tree w.caller ⟨h.method, t, h.version, fieldsOf h⟩).notices⟩ := by
    simp only [serveHead, hq, serveRequest, hr, accessLines, hlog, Option.map_some,
      Option.toList_some]
  refine ⟨_, ⟨r.status, completed w h.version r, r.body⟩, ⟨?_, congrArg Outcome.accessLines hserve,
    ⟨t, ht, AccessEntry.describes_entryOf r⟩, AccessEntry.measures_entryOf w _ rfl rfl, ?_⟩⟩
  · rw [hserve]
    exact hone.read
  · intro q' hq' hnone
    obtain rfl := Except.ok.inj (hq.symm.trans hq')
    -- what is on the wire differs from the answer in its fields only
    have hsends : site.SendsNoBody w.tree w.caller ⟨h.method, t, h.version, fieldsOf h⟩ r := by
      cases hnone with
      | headOnly hmethod => exact .headOnly hmethod
      | redirect hstatus => exact .redirect hstatus
      | unchanged hstatus => exact .unchanged hstatus
      | emptyFile hmethod hselects hread hstatus =>
        exact .emptyFile hmethod hselects hread hstatus
    exact if_pos (hsends.body_eq hr)

/-- A head that is not handled leaves no access line. -/
theorem accessLines_of_not_isHandled {site : OpenSite} {w : Surroundings} {h : Head}
    (hnot : ¬ IsHandled site w h) : (serveHead site w h).accessLines = [] := by
  cases hq : requestOf h with
  | error why => simp only [serveHead, hq]
  | ok q =>
    cases hr : (site.answer w.tree w.caller q).response with
    | none => simp only [serveHead, hq, serveRequest, hr]
    | some r => exact absurd ⟨q, r, hq, hr⟩ hnot

/-- **The access log tells what was sent.**  With access logging on, a head that is passed on and
handled leaves exactly one entry; it describes the head, has the status of the message on the wire
and the number of the octets in its body, and no such number where there is no body, as in answers
to requests for a head, in redirects, in answers that nothing has changed and for empty files.  No
other connection leaves an entry: none whose head is passed on without being handled, and none
whose head is not passed on.  A rejection leaves one notice, in which stands the status of the
message on the wire. -/
theorem access_log_tells_what_was_sent {site : OpenSite} {f : AccessFormat}
    (hlog : site.accessLog = some f) (w : Surroundings) (incoming : Incoming Trouble) :
    (∀ h, passedOn incoming = some h →
      (IsHandled site w h →
        ∃ e sent, IsRecorded site w f h (serve site w incoming) e sent) ∧
      (¬ IsHandled site w h → (serve site w incoming).accessLines = [])) ∧
    (passedOn incoming = none → (serve site w incoming).accessLines = []) ∧
    ∀ why, (readHead incoming).1 = .rejected why →
      ∃ sent, Response.read? (serve site w incoming).sent = some sent ∧
        (serve site w incoming).notices.map Notice.line =
          ["[ERROR] code ".toList ++ Decimal.ofNat sent.status.code ++ ", message ".toList ++
            why.message] := by
  refine ⟨?_, ?_, ?_⟩
  · intro h hpass
    obtain ⟨read, hread, -⟩ := passedOn_eq_some_iff.mp hpass
    obtain ⟨h', hpass', hserve⟩ := serve_of_complete site w hread
    obtain rfl := Option.some.inj (hpass.symm.trans hpass')
    rw [hserve]
    exact ⟨exists_isRecorded hlog (isAcceptable_of_passedOn hpass),
      accessLines_of_not_isHandled⟩
  · intro hnone
    cases hread : (readHead incoming).1 with
    | closed => simp only [serve, hread]
    | failed cause => simp only [serve, hread]
    | rejected why => simp only [serve, hread, serveRejection]
    | complete read =>
      obtain ⟨h, hpass, -⟩ := serve_of_complete site w hread
      rw [hnone] at hpass
      cases hpass
  · intro why hread
    have hone := (isOneResponse_rejection site w why).1
    have hstatus : (rejectionAnswer site w why).status = why.status := by
      simp only [rejectionAnswer, OpenSite.status_sign, Response.isolate,
        OpenSite.status_errorAnswer]
    refine ⟨rejectionAnswer site w why, ?_, ?_⟩
    · rw [serve_of_rejected site w hread]
      exact hone.read
    · rw [serve_of_rejected site w hread, hstatus]
      rfl

/-- A folder with a file of two octets in it. -/
def treeWithText : Files.Tree :=
  ⟨[([ascii "www"], .folder 0o755), ([ascii "www", ascii "a"], .file (ascii "hi") ⟨0, 0⟩ 0o644)]⟩

/-- A site of that folder that logs in the combined format. -/
def loggingSite : OpenSite := ⟨.default, ascii "/www", some .combined⟩

/-- The surroundings of a connection to it. -/
def loggingSurroundings : Surroundings :=
  ⟨treeWithText, .other, ⟨⟨0, 0⟩, 0⟩, 7, .v4 ⟨127, 0, 0, 1⟩⟩

/-- The head of a request in the old version for the file, with a query, a referer that is not
ASCII, and two user agents under names in different cases. -/
def headWithAgents : Head where
  method := ascii "GET"
  target := ascii "/a?"
  version := .http10
  fields := [(ascii "Referer", [0xFF]), (ascii "USER-AGENT", ascii "x"),
    (ascii "user-agent", ascii "y")]

/-- Its octets, in two portions. -/
def requestWithAgents : Incoming Trouble :=
  .ofPieces [ascii "GET /a? HTTP/1.0\r\nReferer: " ++ [0xFF],
    ascii "\r\nUSER-AGENT: x\r\nuser-agent: y\r\n\r\n"]

/-- It is recorded: with an empty query, without a referer, and with the first user agent. -/
theorem requestWithAgents_recorded :
    loggingSite.accessLog = some .combined ∧ passedOn requestWithAgents = some headWithAgents ∧
      ∃ e sent, IsRecorded loggingSite loggingSurroundings .combined headWithAgents
          (serve loggingSite loggingSurroundings requestWithAgents) e sent ∧
        e.query = some [] ∧ e.httpVersion = "1.0".toList ∧ e.referer = none ∧
        e.userAgent = some ['x'] := by
  have hlog : loggingSite.accessLog = some .combined := rfl
  have hpass : passedOn requestWithAgents = some headWithAgents := by decide +kernel
  have hhandled : IsHandled loggingSite loggingSurroundings headWithAgents := by
    have hanswer : ((loggingSite.answer treeWithText .other ⟨ascii "GET", ⟨"/a".toList, some []⟩,
        .http10, fieldsOf headWithAgents⟩).response).isSome = true := by decide +kernel
    obtain ⟨r, hr⟩ := Option.isSome_iff_exists.mp hanswer
    have hrequest : requestOf headWithAgents =
        .ok ⟨ascii "GET", ⟨"/a".toList, some []⟩, .http10, fieldsOf headWithAgents⟩ := by
      decide +kernel
    exact ⟨_, r, hrequest, hr⟩
  obtain ⟨e, sent, h⟩ :=
    ((access_log_tells_what_was_sent hlog loggingSurroundings requestWithAgents).1 _ hpass).1
      hhandled
  obtain ⟨t, ht, hdescribes⟩ := h.describes
  have htarget : Target.parse? headWithAgents.target = some ⟨"/a".toList, some []⟩ := by
    decide +kernel
  obtain rfl := Option.some.inj (htarget.symm.trans ht)
  have hreferer : headerText? "referer" headWithAgents = none := by decide +kernel
  have hagent : headerText? "user-agent" headWithAgents = some ['x'] := by decide +kernel
  exact ⟨hlog, hpass, e, sent, h, hdescribes.query, hdescribes.httpVersion,
    hdescribes.referer.trans hreferer, hdescribes.userAgent.trans hagent⟩

end Connection

end IsolatedSite
