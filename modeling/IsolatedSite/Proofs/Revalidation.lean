/-
# A client asks whether its copy is still good

A client that got a file keeps the date that came with it, and names that date when it asks for
the file again.  The date is read back as the second that it was written for, so the comparison is
one of seconds rounded down, and the client is sent the file again exactly if the file has become
younger (`revalidates`).  Nothing is assumed about how the two trees are related: between the
requests the file may be replaced, moved, or come to be another one under the same path.
-/
import IsolatedSite.Proofs.DateReading
import IsolatedSite.Proofs.FileAnswers

namespace IsolatedSite

open IsolatedSite.Http IsolatedSite.Http.Fields

/-! ## 1. The condition -/

/-- A file is unchanged if it is no younger than the second that a date names. -/
theorem Site.isNotModified?_httpDateText {t₁ t₂ : Calendar.Instant} (h₁ : t₁.IsOrdinary)
    (h₂ : t₂.IsOrdinary) :
    Site.isNotModified? (some (Calendar.httpDateText t₁)) false t₂ =
      some (decide (t₂.seconds ≤ t₁.seconds)) := by
  unfold Site.isNotModified?
  rw [Option.bind_some, Calendar.MailDate.read?_httpDateText h₁]
  exact if_pos h₂.isKnown

namespace OpenSite

variable {site : OpenSite} {t : Files.Tree} {who : Files.Caller}

/-! ## 2. The requests -/

/-- A request for a file is answered with it: the file that the request selects has a content and
a modification time, and the answer has the status of a success. -/
structure GetsFile (site : OpenSite) (t : Files.Tree) (who : Files.Caller) (q : Site.Request)
    (content : Bytes) (modified : Calendar.Instant) (r : Response) : Prop where
  method : q.method = Site.methodGet
  selects : ∃ p mode, site.Selects t who (.ofRequest q) p ∧
    t.stat who [] p = .ok (.file content modified mode)
  response : (site.answer t who q).response = some r
  status : r.status = .ok

/-- A request asks once more for what another one asked for, if it has changed since a date. -/
structure Repeats (first again : Site.Request) (since : Bytes) : Prop where
  method : again.method = Site.methodGet
  target : again.target = first.target
  condition : again.fields.valuesOf (ascii "if-modified-since") = [since]
  untagged : again.fields.has (ascii "if-none-match") = false

/-- **What is sent** for a file is its content with its date. -/
theorem GetsFile.response_eq {q : Site.Request} {content : Bytes} {modified : Calendar.Instant}
    {r : Response} (h : site.GetsFile t who q content modified r) :
    ∃ p mode date, site.SelectsFile t who (.ofRequest q) p (.file content modified mode) date ∧
      t.read who [] p = .ok content ∧
      r = site.finished (fileAnswer content (ContentType.ofPath p) date false).response := by
  obtain ⟨p, mode, hselects, hstat⟩ := h.selects
  have hanswer := h.response
  rw [response_answer (Or.inl h.method), Option.map_eq_some_iff] at hanswer
  obtain ⟨inner, hserve, rfl⟩ := hanswer
  have hstatus : inner.status = .ok := (status_finished inner).symm.trans h.status
  obtain ⟨node, date, content', hsel, hread, rfl⟩ := hselects.sent hserve hstatus
  obtain rfl : node = .file content modified mode :=
    Except.ok.inj (hsel.found.symm.trans hstat)
  obtain ⟨_, _, hfile⟩ := Files.Tree.stat_of_read hread
  obtain ⟨rfl, -, -⟩ := Files.Node.file.inj (Except.ok.inj (hstat.symm.trans hfile))
  exact ⟨p, mode, date, hsel, hread, by rw [isHead_ofRequest h.method]⟩

/-- The answer with a file has the date of the file. -/
theorem lastModified_finished {content : Bytes} {type date : Text} (htype : Text.IsPlain type)
    (hdate : Text.IsPlain date) (isHead : Bool) :
    (site.finished (fileAnswer content type date isHead).response).fields.valuesOf lastModified =
      [Utf8.encode date] := by
  rw [valuesOf_finished (by simp [ownNames]) (by decide +kernel),
    fileAnswer_eq content htype hdate]
  rfl

theorem GetsFile.lastModified_eq {q : Site.Request} {content : Bytes}
    {modified : Calendar.Instant} {r : Response} (h : site.GetsFile t who q content modified r)
    (hordinary : modified.IsOrdinary) :
    r.fields.valuesOf lastModified = [Utf8.encode (Calendar.httpDateText modified)] := by
  obtain ⟨p, mode, date, hsel, -, rfl⟩ := h.response_eq
  obtain rfl : Calendar.httpDateText modified = date :=
    Option.some.inj (hordinary.httpDate?_eq.symm.trans hsel.dated)
  exact lastModified_finished (isPlain_ofPath p) (Calendar.isPlain_httpDateText modified) false

/-- What a repeated request says about the copy that the client has. -/
theorem Repeats.ofRequest_eq {first again : Site.Request} {date : Text}
    (h : Repeats first again (Utf8.encode date)) (hplain : Text.IsPlain date) :
    Site.Inquiry.ofRequest again =
      ⟨first.target.path, first.target.query, false, some date, false⟩ := by
  have hsince : again.fields.firstText? (ascii "if-modified-since") = some date := by
    rw [firstText?, first?_of_valuesOf h.condition, Option.bind_some,
      hplain.visibleText?_encode]
  have hhead := isHead_ofRequest h.method
  simp only [Site.Inquiry.ofRequest] at hhead ⊢
  rw [hhead, hsince, h.untagged, h.target]

/-! ## 3. The answer -/

/-- **The second answer** goes by the file that is there now: it tells the file's date if the file
is no younger than the client's copy, and else sends the file. -/
theorem response_of_repeats {first plain again : Site.Request} {t₁ t₂ : Calendar.Instant}
    (h₁ : t₁.IsOrdinary) (h₂ : t₂.IsOrdinary) {content : Bytes} {r : Response}
    (hplain : site.GetsFile t who plain content t₂ r) (htarget : plain.target = first.target)
    (hagain : Repeats first again (Utf8.encode (Calendar.httpDateText t₁))) :
    (site.answer t who again).response = some (if t₂.seconds ≤ t₁.seconds then
      site.finished (notModifiedAnswer (Calendar.httpDateText t₂)).response else r) := by
  obtain ⟨p, mode, date, ⟨hselects, hcontained, hfound, hdated⟩, hread, rfl⟩ := hplain.response_eq
  obtain rfl : Calendar.httpDateText t₂ = date :=
    Option.some.inj (h₂.httpDate?_eq.symm.trans hdated)
  have hinquiry := hagain.ofRequest_eq (Calendar.isPlain_httpDateText t₁)
  have hpath : (Site.Inquiry.ofRequest again).path = (Site.Inquiry.ofRequest plain).path := by
    rw [hinquiry]
    exact congrArg Target.path htarget.symm
  have hunchanged : Site.isNotModified? (Site.Inquiry.ofRequest again).ifModifiedSince
      (Site.Inquiry.ofRequest again).hasIfNoneMatch (modifiedOf (.file content t₂ mode)) =
        some (decide (t₂.seconds ≤ t₁.seconds)) := by
    rw [hinquiry]
    exact Site.isNotModified?_httpDateText h₁ h₂
  have hserve := serve_of_selectsFile
    ⟨hselects.congr hpath, hcontained, hfound, hdated⟩ hunchanged fun _ => hread
  rw [response_answer (Or.inl hagain.method), hserve, isHead_ofRequest hagain.method]
  by_cases hle : t₂.seconds ≤ t₁.seconds <;> simp [hle]

/-- **Revalidation.**  A header date is read back as the second that it was written for, rounded
down, and a file is unchanged since that date exactly if its own second is no later.  So a client
that got a file of time `t₁`, and asks for it again under the date that it got, where without a
condition it would get a file of time `t₂`, is told the date of that file if `t₂` is no later than
`t₁` by the second, and gets that file otherwise. -/
theorem revalidates {t₁ t₂ : Calendar.Instant} (h₁ : t₁.IsOrdinary) (h₂ : t₂.IsOrdinary) :
    Calendar.httpDate? t₁ = some (Calendar.httpDateText t₁) ∧
    Calendar.MailDate.read? (Calendar.httpDateText t₁) = some t₁.seconds ∧
    Site.isNotModified? (some (Calendar.httpDateText t₁)) false t₂ =
      some (decide (t₂.seconds ≤ t₁.seconds)) ∧
    ∀ (site : OpenSite) (before after : Files.Tree) (who : Files.Caller)
      (first plain again : Site.Request) (content₁ content₂ since : Bytes) (r₁ r₂ : Response),
      site.GetsFile before who first content₁ t₁ r₁ → r₁.fields.valuesOf lastModified = [since] →
      site.GetsFile after who plain content₂ t₂ r₂ → plain.target = first.target →
      Repeats first again since →
      ∃ r, (site.answer after who again).response = some r ∧
        (t₂.seconds ≤ t₁.seconds → r.status = .notModified ∧ r.body = [] ∧
          r.fields.valuesOf lastModified = [Utf8.encode (Calendar.httpDateText t₂)]) ∧
        (t₁.seconds < t₂.seconds → r = r₂ ∧ r.status = .ok ∧ r.body = content₂) := by
  refine ⟨h₁.httpDate?_eq, Calendar.MailDate.read?_httpDateText h₁,
    Site.isNotModified?_httpDateText h₁ h₂, ?_⟩
  intro site before after who first plain again content₁ content₂ since r₁ r₂ hfirst hsince hplain
    htarget hagain
  obtain rfl : Utf8.encode (Calendar.httpDateText t₁) = since :=
    List.head_eq_of_cons_eq ((hfirst.lastModified_eq h₁).symm.trans hsince)
  have hresponse := response_of_repeats h₁ h₂ hplain htarget hagain
  have hdate := Calendar.isPlain_httpDateText t₂
  by_cases hle : t₂.seconds ≤ t₁.seconds
  · rw [if_pos hle] at hresponse
    refine ⟨_, hresponse, fun _ => ⟨?_, ?_, ?_⟩, fun hlt => absurd hle (by omega)⟩
    · rw [status_finished, notModifiedAnswer_eq hdate]
    · rw [body_finished, notModifiedAnswer_eq hdate]
    · rw [valuesOf_finished (by simp [ownNames]) (by decide +kernel), notModifiedAnswer_eq hdate]
      rfl
  · rw [if_neg hle] at hresponse
    refine ⟨r₂, hresponse, fun h => absurd h hle, fun _ => ⟨rfl, hplain.status, ?_⟩⟩
    obtain ⟨p, mode, date, hsel, -, rfl⟩ := hplain.response_eq
    rw [body_finished, fileAnswer_eq content₂ (isPlain_ofPath p)
      (Calendar.isPlain_of_httpDate? hsel.dated)]
    rfl

/-- A folder with one file in it. -/
def treeOfOneFile (content : Bytes) (modified : Calendar.Instant) : Files.Tree :=
  ⟨[([ascii "www"], .folder 0o755), ([ascii "www", ascii "a"], .file content modified 0o644)]⟩

/-- The request for that file. -/
def requestForA (fields : Fields) : Site.Request :=
  ⟨Site.methodGet, ⟨"/a".toList, none⟩, .http11, fields⟩

theorem stat_treeOfOneFile (content : Bytes) (modified : Calendar.Instant) :
    (treeOfOneFile content modified).stat .other [] (ascii "/www/a") =
      .ok (.file content modified 0o644) := by
  rfl

theorem selects_treeOfOneFile (content : Bytes) (modified : Calendar.Instant) :
    siteOfWww.Selects (treeOfOneFile content modified) .other (.ofRequest (requestForA []))
      (ascii "/www/a") :=
  .itself ⟨by decide +kernel, stat_treeOfOneFile content modified,
    ascii "/www/a", by rfl, by decide +kernel⟩ nofun (by decide +kernel)

/-- The answer with that file. -/
def answerWithA (content : Bytes) (modified : Calendar.Instant) : Response :=
  siteOfWww.finished (fileAnswer content "application/octet-stream".toList
    (Calendar.httpDateText modified) false).response

/-- **Fractions of a second before 1970** do not count: a file that is written anew within the
last second of 1969 has not changed. -/
theorem revalidates_within_last_second_of_1969 :
    ∃ r, (siteOfWww.answer (treeOfOneFile (ascii "new") ⟨-1, 900000000⟩) .other (requestForA
        [(ascii "if-modified-since", ascii "Wed, 31 Dec 1969 23:59:59 GMT")])).response = some r ∧
      r.status = .notModified ∧ r.body = [] := by
  have hold : siteOfWww.GetsFile (treeOfOneFile (ascii "old") ⟨-1, 600000000⟩) .other
      (requestForA []) (ascii "old") ⟨-1, 600000000⟩
      (answerWithA (ascii "old") ⟨-1, 600000000⟩) :=
    ⟨rfl, ⟨_, _, selects_treeOfOneFile .., stat_treeOfOneFile ..⟩, by decide +kernel,
      by decide +kernel⟩
  have hnew : siteOfWww.GetsFile (treeOfOneFile (ascii "new") ⟨-1, 900000000⟩) .other
      (requestForA []) (ascii "new") ⟨-1, 900000000⟩
      (answerWithA (ascii "new") ⟨-1, 900000000⟩) :=
    ⟨rfl, ⟨_, _, selects_treeOfOneFile .., stat_treeOfOneFile ..⟩, by decide +kernel,
      by decide +kernel⟩
  obtain ⟨-, -, -, hanswers⟩ := @revalidates ⟨-1, 600000000⟩ ⟨-1, 900000000⟩
    ⟨by decide, by decide +kernel, by decide +kernel⟩
    ⟨by decide, by decide +kernel, by decide +kernel⟩
  obtain ⟨r, hr, hunchanged, -⟩ := hanswers _ _ _ _ _ _ (requestForA
      [(ascii "if-modified-since", ascii "Wed, 31 Dec 1969 23:59:59 GMT")]) _ _
    (ascii "Wed, 31 Dec 1969 23:59:59 GMT") _ _ hold (by decide +kernel) hnew rfl
    ⟨rfl, rfl, by decide +kernel, by decide +kernel⟩
  obtain ⟨hstatus, hbody, -⟩ := hunchanged (by decide)
  exact ⟨r, hr, hstatus, hbody⟩

end OpenSite

end IsolatedSite
