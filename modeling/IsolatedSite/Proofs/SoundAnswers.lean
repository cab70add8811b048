/-
# Every answer can be told apart on the wire

An answer is sound if its fields can be sent, a body stands only where one may stand, and no length
but that of the body is announced (`Response.IsSound`).  The builders make sound answers whatever
texts they are given: one that does not fit into a field makes the answer an empty one.  Signing and
isolating keep an answer sound, so everything that a site answers is (`isSound_of_answer`), and the
connection, which adds the length where it is missing, sends it as one message
(`isOneResponse_message`).
-/
import IsolatedSite.Connection.Exchange
import IsolatedSite.Proofs.Answering
import IsolatedSite.Proofs.WireForm

namespace IsolatedSite

open IsolatedSite.Http IsolatedSite.Http.Fields

namespace Http

/-! ## 1. Sound answers -/

/-- Nothing in an answer is in the way of sending it as one message; `isHead` says whether only
the head was asked for. -/
structure Response.IsSound (isHead : Bool) (r : Response) : Prop where
  sendable : r.fields.AreSendable
  bodyless : isHead = true ∨ Connection.mayHaveLength r.status = false → r.body = []
  length : isHead = false → r.fields.valuesOf contentLength = [Decimal.bytes r.body.length] ∨
    (r.fields.valuesOf contentLength = [] ∧ r.body = [])

theorem isSound_empty (isHead : Bool) (s : Status) : Response.IsSound isHead ⟨s, [], []⟩ :=
  ⟨by simp [AreSendable], fun _ => rfl, fun _ => Or.inr ⟨rfl, rfl⟩⟩

/-- The names of all fields that are put into answers, the isolation headers apart. -/
def ownNames : List Bytes :=
  [contentType, contentLength, lastModified, location, ascii "server", ascii "date",
    ascii "connection"]

theorem isSendable_of_mem_ownNames {name value : Bytes} (h : name ∈ ownNames)
    (hvalue : value.all isValueByte = true) : IsSendable (name, value) := by
  have hall : ∀ n ∈ ownNames, n.all isTokenByte = true ∧ n.map Byte.toLower = n := by
    decide
  exact ⟨List.all_eq_true.mp (hall name h).1, (hall name h).2, hvalue⟩

/-- **What is built is sound**, if the body fits to the fields: the texts that are no field values
are found before the answer is made. -/
theorem isSound_build {isHead : Bool} {shape : Text} {status fallback : Status}
    {fields : List (Bytes × Text)} {body : Bytes} (hnames : ∀ f ∈ fields, f.1 ∈ ownNames)
    (hbody : isHead = true ∨ Connection.mayHaveLength status = false → body = [])
    (hlength : isHead = false →
      valuesOf contentLength (fields.map fun f => (f.1, Utf8.encode f.2)) =
        [Decimal.bytes body.length] ∨
      (valuesOf contentLength (fields.map fun f => (f.1, Utf8.encode f.2)) = [] ∧ body = [])) :
    (build shape status fallback fields body).response.IsSound isHead := by
  by_cases hvalues : (fields.map fun f => (f.1, Utf8.encode f.2)).all fun f => f.2.all isValueByte
  · simp only [build, hvalues, if_true]
    refine ⟨fun f hf => ?_, hbody, hlength⟩
    have hvalue := List.all_eq_true.mp hvalues f hf
    obtain ⟨g, hg, rfl⟩ := List.mem_map.mp hf
    exact isSendable_of_mem_ownNames (hnames g hg) hvalue
  · simp only [build, if_neg hvalues]
    exact isSound_empty isHead fallback

theorem bodyUnless_eq_nil {isHead : Bool} (h : isHead = true) (body : Bytes) :
    bodyUnless isHead body = [] := by
  rw [h]
  rfl

theorem bodyUnless_eq_self {isHead : Bool} (h : isHead = false) (body : Bytes) :
    bodyUnless isHead body = body := by
  rw [h]
  rfl

/-- An answer with content announces the length of the content, also without its body. -/
theorem isSound_content {isHead : Bool} {shape : Text} {status fallback : Status}
    {fields : List (Bytes × Text)} {content : Bytes} (hnames : ∀ f ∈ fields, f.1 ∈ ownNames)
    (hstatus : Connection.mayHaveLength status = true)
    (hlength : valuesOf contentLength (fields.map fun f => (f.1, Utf8.encode f.2)) =
      [Utf8.encode (Decimal.ofNat content.length)]) :
    (build shape status fallback fields (bodyUnless isHead content)).response.IsSound isHead := by
  refine isSound_build hnames ?_ fun hbody => Or.inl ?_
  · rintro (hhead | hnone)
    · exact bodyUnless_eq_nil hhead content
    · rw [hstatus] at hnone
      cases hnone
  · rw [bodyUnless_eq_self hbody, hlength, Decimal.encode_ofNat]

/-! ## 2. The shapes -/

theorem isSound_fileAnswer (content : Bytes) (type modified : Text) (isHead : Bool) :
    (fileAnswer content type modified isHead).response.IsSound isHead :=
  isSound_content (by simp [ownNames]) (by decide) rfl

theorem isSound_notModifiedAnswer (modified : Text) (isHead : Bool) :
    (notModifiedAnswer modified).response.IsSound isHead :=
  isSound_build (by simp [ownNames]) (fun _ => rfl) fun _ => Or.inr ⟨rfl, rfl⟩

theorem isSound_redirectAnswer (target : Text) (isHead : Bool) :
    (redirectAnswer target).response.IsSound isHead :=
  isSound_build (by simp [ownNames]) (fun _ => rfl) fun _ => Or.inl rfl

theorem isSound_pageAnswer (page : Text) (isHead : Bool) :
    (pageAnswer page isHead).response.IsSound isHead :=
  isSound_content (by simp [ownNames]) (by decide) rfl

theorem isSound_errorAnswer {s : Status} (hs : Connection.mayHaveLength s = true)
    (message : Option Text) (isHead : Bool) :
    (errorAnswer s message isHead).response.IsSound isHead :=
  isSound_content (by simp [ownNames]) hs rfl

/-! ## 3. Plain texts always fit -/

theorem build_of_isPlain {shape : Text} {status fallback : Status} {fields : List (Bytes × Text)}
    {body : Bytes} (h : ∀ f ∈ fields, Text.IsPlain f.2) :
    build shape status fallback fields body =
      ⟨⟨status, fields.map fun f => (f.1, Utf8.encode f.2), body⟩, none⟩ := by
  have hall : (fields.map fun f => (f.1, Utf8.encode f.2)).all fun f => f.2.all isValueByte := by
    simp only [List.all_map, List.all_eq_true]
    exact fun f hf => (h f hf).isValueByte_encode
  simp only [build, hall, if_true]

theorem isPlain_htmlType : Text.IsPlain htmlType := by decide

theorem isPlain_ofExtension (extension : Text) :
    Text.IsPlain (ContentType.ofExtension extension) := by
  have hall : ∀ p ∈ ContentType.table, Text.IsPlain p.2.toList := by decide +kernel
  unfold ContentType.ofExtension
  cases hfound : (ContentType.table.map fun p => (p.1.toList, p.2)).lookup extension with
  | none => decide
  | some type =>
    obtain ⟨before, behind, hsplit, -⟩ := List.lookup_eq_some_iff.mp hfound
    have hmem : (extension, type) ∈ ContentType.table.map fun p => (p.1.toList, p.2) := by
      simp [hsplit]
    obtain ⟨p, hp, heq⟩ := List.mem_map.mp hmem
    exact (Prod.mk.inj heq).2 ▸ hall p hp

theorem isPlain_ofPath (p : Path) : Text.IsPlain (ContentType.ofPath p) := by
  unfold ContentType.ofPath
  split
  · exact isPlain_ofExtension _
  · decide

theorem fileAnswer_eq (content : Bytes) {type modified : Text} (htype : Text.IsPlain type)
    (hmodified : Text.IsPlain modified) (isHead : Bool) :
    (fileAnswer content type modified isHead).response =
      ⟨.ok, [(contentType, Utf8.encode type), (contentLength, Decimal.bytes content.length),
        (lastModified, Utf8.encode modified)], bodyUnless isHead content⟩ := by
  rw [← Decimal.encode_ofNat, fileAnswer, build_of_isPlain]
  · rfl
  · simp [htype, hmodified, Decimal.isPlain_ofNat]

theorem notModifiedAnswer_eq {modified : Text} (h : Text.IsPlain modified) :
    (notModifiedAnswer modified).response =
      ⟨.notModified, [(lastModified, Utf8.encode modified)], []⟩ := by
  rw [notModifiedAnswer, build_of_isPlain]
  · rfl
  · simpa using h

/-- A redirect is an empty answer if its target is no field value. -/
theorem redirectAnswer_eq (target : Text) :
    (redirectAnswer target).response =
      if (Utf8.encode target).all isValueByte then
        ⟨.movedPermanently, [(location, Utf8.encode target), (contentLength, Decimal.bytes 0)], []⟩
      else ⟨.ok, [], []⟩ := by
  have hzero : Utf8.encode ['0'] = Decimal.bytes 0 := by decide
  have hplain : (Decimal.bytes 0).all isValueByte = true := by decide
  simp only [redirectAnswer, build, List.map_cons, List.map_nil, hzero, List.all_cons, hplain,
    List.all_nil, Bool.and_true]
  split <;> rfl

/-- What a generated page is sent with. -/
def pageFields (content : Bytes) : Fields :=
  [(contentType, Utf8.encode htmlType), (contentLength, Decimal.bytes content.length)]

theorem pageAnswer_eq (page : Text) (isHead : Bool) :
    (pageAnswer page isHead).response =
      ⟨.ok, pageFields (Utf8.encode page), bodyUnless isHead (Utf8.encode page)⟩ := by
  rw [pageFields, ← Decimal.encode_ofNat, pageAnswer, build_of_isPlain]
  · rfl
  · simp [isPlain_htmlType, Decimal.isPlain_ofNat]

theorem errorAnswer_eq (s : Status) (message : Option Text) (isHead : Bool) :
    (errorAnswer s message isHead).response =
      ⟨s, pageFields (Utf8.encode (errorPage s (message.getD (shownReason s)))),
        bodyUnless isHead (Utf8.encode (errorPage s (message.getD (shownReason s))))⟩ := by
  rw [pageFields, ← Decimal.encode_ofNat, errorAnswer, build_of_isPlain]
  · rfl
  · simp [isPlain_htmlType, Decimal.isPlain_ofNat]

/-! ## 4. Signing and isolating -/

theorem Response.IsSound.set {isHead : Bool} {r : Response} (h : r.IsSound isHead)
    {name value : Bytes} (hsend : IsSendable (name, value)) (hname : contentLength ≠ name) :
    Response.IsSound isHead { r with fields := Fields.set name value r.fields } := by
  refine ⟨h.sendable.set hsend, h.bodyless, fun hhead => ?_⟩
  rw [valuesOf_set_of_ne hname]
  exact h.length hhead

theorem Response.IsSound.isolate {isHead : Bool} {r : Response} (h : r.IsSound isHead) :
    r.isolate.IsSound isHead := by
  refine ⟨h.sendable.isolate, h.bodyless, fun hhead => ?_⟩
  rw [Response.isolate, valuesOf_isolate_of_ne (by decide)]
  exact h.length hhead

end Http

namespace OpenSite

variable {site : OpenSite} {t : Files.Tree} {who : Files.Caller}

theorem isSound_sign {isHead : Bool} {r : Response} (h : r.IsSound isHead) :
    (site.sign r).IsSound isHead := by
  by_cases hname : (Utf8.encode site.settings.server.serverName).all isValueByte
  · simp only [sign, hname, if_true]
    exact h.set (isSendable_of_mem_ownNames (by simp [ownNames]) hname) (by decide)
  · simp only [sign, if_neg hname]
    exact h

theorem body_sign (r : Response) : (site.sign r).body = r.body := by
  simp only [sign]
  split <;> rfl

theorem valuesOf_sign {name : Bytes} (h : name ≠ ascii "server") (r : Response) :
    (site.sign r).fields.valuesOf name = r.fields.valuesOf name := by
  simp only [sign]
  split
  · exact valuesOf_set_of_ne h _ _
  · rfl

theorem isIsolated_sign {r : Response} (h : r.fields.IsIsolated) :
    (site.sign r).fields.IsIsolated := by
  intro f hf
  have hne : ∀ f ∈ isolationFields, f.1 ≠ ascii "server" := by decide
  rw [valuesOf_sign (hne f hf)]
  exact h f hf

/-! ## 5. What a site answers -/

theorem mayHaveLength_of_page? {e : Site.Failure} {status : Status} {message : Text}
    (h : e.page? = some (status, message)) : Connection.mayHaveLength status = true := by
  cases e <;> cases h <;> decide

theorem isSound_of_gives {q : Site.Inquiry} {r : Response} (h : site.Gives t who q r) :
    r.IsSound q.isHead := by
  cases h with
  | redirected => exact isSound_redirectAnswer _ _
  | listed => exact isSound_pageAnswer _ _
  | unchanged => exact isSound_notModifiedAnswer _ _
  | sent => exact isSound_fileAnswer _ _ _ _

theorem isSound_of_serve {q : Site.Inquiry} {r : Response}
    (h : (site.serve t who q).response = some r) : r.IsSound q.isHead := by
  rcases gives_or_page_of_serve h with h | ⟨e, status, message, -, hpage, rfl⟩
  · exact isSound_of_gives h
  · exact isSound_errorAnswer (mayHaveLength_of_page? hpage) _ _

/-- Whether a request asks for the head of an answer only. -/
def asksForHead (q : Site.Request) : Bool := q.method == Site.methodHead

theorem isSound_of_handle {q : Site.Request} {r : Response}
    (h : (site.handle t who q).response = some r) : r.IsSound (asksForHead q) := by
  simp only [handle, Option.map_eq_some_iff] at h
  obtain ⟨inner, hinner, rfl⟩ := h
  refine isSound_sign ?_
  split at hinner
  · exact isSound_of_serve hinner
  · rename_i hmethod
    have hnotHead : asksForHead q = false := by
      simpa [asksForHead] using (not_or.mp hmethod).2
    rw [Reply.ofBuilt, Option.some.injEq] at hinner
    rw [hnotHead, ← hinner]
    exact isSound_errorAnswer (by decide) _ _

/-- **Every answer of a site is sound and isolated.** -/
theorem isSound_of_answer {q : Site.Request} {r : Response}
    (h : (site.answer t who q).response = some r) :
    r.IsSound (asksForHead q) ∧ r.fields.IsIsolated := by
  simp only [answer, Option.map_eq_some_iff] at h
  obtain ⟨inner, hinner, rfl⟩ := h
  exact ⟨(isSound_of_handle hinner).isolate, isIsolated_isolate _⟩

end OpenSite

namespace Connection

/-! ## 6. On the wire -/

/-- The octets are one response: they are its head and its body, there is no body where none may
stand, and elsewhere the body has the length that is announced. -/
structure IsOneResponse (isHead : Bool) (sent : Bytes) (r : Response) : Prop where
  read : Response.read? sent = some r
  bodyless : isHead = true ∨ mayHaveLength r.status = false → r.body = []
  length : isHead = false → mayHaveLength r.status = true →
    r.fields.valuesOf contentLength = [Decimal.bytes r.body.length]

theorem isFirstLine_message (v : Version) (s : Status) :
    IsFirstLine (versionBytes v) (s.reason?.getD "<none>".toList) :=
  ⟨by cases v <;> rfl, by cases v <;> decide, cr_not_mem_reason s (by decide)⟩

theorem isSendable_date (w : Surroundings) : IsSendable (ascii "date", dateValue w) := by
  refine isSendable_of_mem_ownNames (by simp [ownNames]) ?_
  unfold dateValue
  cases hdate : Calendar.httpDate? w.now.instant with
  | none => rfl
  | some date => exact (Calendar.isPlain_of_httpDate? hdate).isValueByte_encode

/-- A field of another name is of no concern to the isolation headers. -/
theorem ne_of_mem_ownNames {name : Bytes} (h : name ∈ ownNames) :
    ∀ f ∈ isolationFields, f.1 ≠ name := by
  have hall : ∀ f ∈ isolationFields, ∀ n ∈ ownNames, f.1 ≠ n := by decide
  exact fun f hf => hall f hf name h

/-- Further fields, with the isolation headers and the length as they were. -/
structure Extends (fs after : Fields) : Prop where
  sendable : fs.AreSendable → after.AreSendable
  isolation : ∀ f ∈ isolationFields, after.valuesOf f.1 = fs.valuesOf f.1
  length : after.valuesOf contentLength = fs.valuesOf contentLength

theorem Extends.refl (fs : Fields) : Extends fs fs := ⟨id, fun _ _ => rfl, rfl⟩

theorem extends_set {name value : Bytes} (hsend : IsSendable (name, value))
    (hown : name ∈ ownNames) (hname : contentLength ≠ name) (fs : Fields) :
    Extends fs (fs.set name value) :=
  ⟨fun h => h.set hsend, fun f hf => valuesOf_set_of_ne (ne_of_mem_ownNames hown f hf) _ _,
    valuesOf_set_of_ne hname _ _⟩

theorem extends_add {name value : Bytes} (hsend : IsSendable (name, value))
    (hown : name ∈ ownNames) (hname : contentLength ≠ name) (fs : Fields) :
    Extends fs (fs.add name value) :=
  ⟨fun h => h.add hsend, fun f hf => valuesOf_add_of_ne (ne_of_mem_ownNames hown f hf) _ _,
    valuesOf_add_of_ne hname _ _⟩

/-- The fields with the end of the connection, as far as it is announced. -/
def closing (v : Version) (fs : Fields) : Fields :=
  if v = .http11 then fs.set (ascii "connection") (ascii "close") else fs

/-- The fields with a length, as far as one may be announced. -/
def measured (r : Response) (fs : Fields) : Fields :=
  if fs.has contentLength ∨ ¬ mayHaveLength r.status then fs
  else fs.add contentLength (Decimal.bytes r.body.length)

/-- The fields with a date. -/
def dated (w : Surroundings) (fs : Fields) : Fields :=
  if fs.has (ascii "date") then fs else fs.add (ascii "date") (dateValue w)

theorem completed_eq (w : Surroundings) (v : Version) (r : Response) :
    completed w v r = dated w (measured r (closing v r.fields)) := rfl

theorem extends_closing (v : Version) (fs : Fields) : Extends fs (closing v fs) := by
  unfold closing
  split
  · exact extends_set (by decide) (by simp [ownNames]) (by decide) fs
  · exact .refl fs

theorem extends_dated (w : Surroundings) (fs : Fields) : Extends fs (dated w fs) := by
  unfold dated
  split
  · exact .refl fs
  · exact extends_add (isSendable_date w) (by simp [ownNames]) (by decide) fs

theorem isSendable_length (n : Nat) : IsSendable (contentLength, Decimal.bytes n) :=
  isSendable_of_mem_ownNames (by simp [ownNames])
    (Decimal.encode_ofNat n ▸ (Decimal.isPlain_ofNat n).isValueByte_encode)

/-- **What the connection adds** leaves fields that can be sent, leaves the isolation headers alone,
and announces the length of the body wherever one may be announced. -/
theorem completed_spec {isHead : Bool} {r : Response} (h : r.IsSound isHead) (w : Surroundings)
    (v : Version) :
    (completed w v r).AreSendable ∧
      (∀ f ∈ isolationFields, (completed w v r).valuesOf f.1 = r.fields.valuesOf f.1) ∧
      (isHead = false → mayHaveLength r.status = true →
        (completed w v r).valuesOf contentLength = [Decimal.bytes r.body.length]) := by
  have hclosing := extends_closing v r.fields
  have hdated := extends_dated w (measured r (closing v r.fields))
  rw [completed_eq, hdated.length]
  by_cases hkeep : (closing v r.fields).has contentLength ∨ ¬ mayHaveLength r.status
  · have hmeasured : measured r (closing v r.fields) = closing v r.fields := if_pos hkeep
    rw [hmeasured] at hdated ⊢
    refine ⟨hdated.sendable (hclosing.sendable h.sendable),
      fun f hf => (hdated.isolation f hf).trans (hclosing.isolation f hf), fun hhead hmay => ?_⟩
    rcases hkeep with hhas | hnot
    · rw [has_iff, hclosing.length] at hhas
      rw [hclosing.length]
      exact (h.length hhead).resolve_right fun hnone => hhas hnone.1
    · exact absurd hmay hnot
  · have hmeasured : measured r (closing v r.fields) =
        (closing v r.fields).add contentLength (Decimal.bytes r.body.length) := if_neg hkeep
    have hnone : (closing v r.fields).valuesOf contentLength = [] := by
      by_contra hne
      exact hkeep (Or.inl (has_iff.mpr hne))
    rw [hmeasured] at hdated ⊢
    refine ⟨hdated.sendable ((hclosing.sendable h.sendable).add (isSendable_length _)),
      fun f hf => ?_, fun _ _ => ?_⟩
    · rw [hdated.isolation f hf,
        valuesOf_add_of_ne (ne_of_mem_ownNames (by simp [ownNames]) f hf),
        hclosing.isolation f hf]
    · rw [valuesOf_add_self, hnone, List.nil_append]

/-- A sound answer that announces its length is one response as it is. -/
theorem isOneResponse_encode {isHead : Bool} {r : Response} (h : r.IsSound isHead)
    (hlength : r.fields.valuesOf contentLength = [Decimal.bytes r.body.length]) :
    IsOneResponse isHead r.encode r :=
  ⟨read?_wireForm (isFirstLine_encode r.status) r.status h.sendable r.body, h.bodyless,
    fun _ _ => hlength⟩

/-- **A sound answer is sent as one response.** -/
theorem isOneResponse_message {isHead : Bool} {r : Response} (h : r.IsSound isHead)
    (w : Surroundings) (v : Version) :
    IsOneResponse isHead (message w v r) ⟨r.status, completed w v r, r.body⟩ := by
  obtain ⟨hsend, -, hlength⟩ := completed_spec h w v
  exact ⟨read?_wireForm (isFirstLine_message v r.status) r.status hsend r.body, h.bodyless,
    hlength⟩

end Connection

end IsolatedSite
