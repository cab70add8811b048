/-
# What goes out on a connection

Whatever comes in, what is sent back is nothing or exactly one response (`IsOneResponse`).  It
carries the isolation headers in all cases but one: a head that the first reading passes on and the
second one refuses is answered with a bare status.  `sent_isolated_iff` says for which heads this
happens: those that are not `WellFramed`.
-/
import IsolatedSite.Proofs.Framing
import IsolatedSite.Proofs.HeadReading
import IsolatedSite.Proofs.SoundAnswers

namespace IsolatedSite.Connection

open IsolatedSite.Http IsolatedSite.Http.Fields

variable {ε : Type}

/-! ## 1. What is passed on -/

/-- The head that the first reading passes on, if it passes one on. -/
def passedOn (incoming : Incoming ε) : Option Head :=
  match (readHead incoming).1 with
  | .complete read => match Head.verdict? read with
    | some (.ok h) => some h
    | _ => none
  | _ => none

/-- Reading ends with a head only upon a verdict, also where reads fail. -/
theorem exists_verdict_of_readHeadFrom {fuel : Nat} {seen read : Bytes} {s : Incoming ε}
    (h : (readHeadFrom fuel seen s).1 = .complete read) :
    ∃ head, Head.verdict? read = some (.ok head) := by
  fun_induction readHeadFrom fuel seen s with
  | case1 seen s => split at h <;> cases h
  | case2 => cases h
  | case3 fuel seen s rest hread => split at h <;> cases h
  | case4 fuel seen s rest x xs hread seen' head hv => exact ⟨head, HeadOutcome.complete.inj h ▸ hv⟩
  | case5 => cases h
  | case6 => cases h
  | case7 fuel seen s rest x xs hread seen' hv hmax ih => exact ih h

/-- What is passed on was accepted. -/
theorem passedOn_eq_some_iff {incoming : Incoming ε} {h : Head} :
    passedOn incoming = some h ↔
      ∃ read, (readHead incoming).1 = .complete read ∧ Head.verdict? read = some (.ok h) := by
  unfold passedOn
  constructor
  · intro hpass
    split at hpass
    · rename_i read hread
      split at hpass
      · rename_i h' hv
        cases hpass
        exact ⟨read, hread, hv⟩
      · cases hpass
    · cases hpass
  · rintro ⟨read, hread, hv⟩
    simp only [hread, hv]

theorem isAcceptable_of_passedOn {incoming : Incoming ε} {h : Head}
    (hpass : passedOn incoming = some h) : h.isAcceptable = true := by
  obtain ⟨read, -, hv⟩ := passedOn_eq_some_iff.mp hpass
  exact (Head.verdict?_eq_ok_iff.mp hv).2

/-- A head that was read completely is passed on and answered. -/
theorem serve_of_complete (site : OpenSite) (w : Surroundings) {incoming : Incoming Trouble}
    {read : Bytes} (hread : (readHead incoming).1 = .complete read) :
    ∃ h, passedOn incoming = some h ∧ serve site w incoming = serveHead site w h := by
  obtain ⟨h, hv⟩ := exists_verdict_of_readHeadFrom hread
  obtain ⟨⟨rest, hscan⟩, -⟩ := Head.verdict?_eq_ok_iff.mp hv
  exact ⟨h, passedOn_eq_some_iff.mpr ⟨read, hread, hv⟩, by simp only [serve, hread, hscan]⟩

/-- The ways in which a connection is served. -/
theorem serve_cases (site : OpenSite) (w : Surroundings) (incoming : Incoming Trouble) :
    (passedOn incoming = none ∧ (serve site w incoming).sent = []) ∨
    (∃ why, passedOn incoming = none ∧ serve site w incoming = serveRejection site w why) ∨
    (∃ h, passedOn incoming = some h ∧ serve site w incoming = serveHead site w h) := by
  cases hread : (readHead incoming).1 with
  | closed => exact Or.inl ⟨by simp [passedOn, hread], by simp only [serve, hread]⟩
  | failed cause => exact Or.inl ⟨by simp [passedOn, hread], by simp only [serve, hread]⟩
  | rejected why =>
    exact Or.inr (Or.inl ⟨why, by simp [passedOn, hread], by simp only [serve, hread]⟩)
  | complete read => exact Or.inr (Or.inr (serve_of_complete site w hread))

/-! ## 2. Rejections -/

/-- **A rejection is answered with one response, and it is isolated.** -/
theorem isOneResponse_rejection (site : OpenSite) (w : Surroundings) (why : Rejection) :
    IsOneResponse false (serveRejection site w why).sent (rejectionAnswer site w why) ∧
      (rejectionAnswer site w why).fields.IsIsolated := by
  have hpage : (errorAnswer why.status (some why.message) false).response.IsSound false :=
    isSound_errorAnswer (by cases why <;> decide) (some why.message) false
  have hsigned : (site.sign
      (errorAnswer why.status (some why.message) false).response.isolate).IsSound false :=
    OpenSite.isSound_sign hpage.isolate
  have hclose : IsSendable (ascii "connection", ascii "close") := by decide +kernel
  have hsound : (rejectionAnswer site w why).IsSound false :=
    (hsigned.set (isSendable_date w) (by decide +kernel)).set hclose (by decide +kernel)
  have hlength : (rejectionAnswer site w why).fields.valuesOf contentLength =
      [Decimal.bytes (rejectionAnswer site w why).body.length] := by
    simp only [rejectionAnswer, OpenSite.body_sign]
    rw [valuesOf_set_of_ne (by decide +kernel), valuesOf_set_of_ne (by decide +kernel),
      OpenSite.valuesOf_sign (by decide +kernel), Response.isolate,
      valuesOf_isolate_of_ne (by decide +kernel), errorAnswer_eq]
    rfl
  have hdate : ∀ f ∈ isolationFields, f.1 ≠ ascii "date" :=
    ne_of_mem_ownNames (by simp [ownNames])
  have hconnection : ∀ f ∈ isolationFields, f.1 ≠ ascii "connection" :=
    ne_of_mem_ownNames (by simp [ownNames])
  exact ⟨isOneResponse_encode hsound hlength,
    ((OpenSite.isIsolated_sign (isIsolated_isolate _)).set_of_ne _ hdate).set_of_ne _ hconnection⟩

/-! ## 3. Heads that are passed on -/

/-- **A head that is refused when it is read for good** is answered with one response, which has no
isolation header. -/
theorem isOneResponse_refusal (isHead : Bool) (w : Surroundings) (why : Refusal) :
    ∃ r, IsOneResponse isHead (refusalMessage w why) r ∧ ¬ r.fields.IsIsolated := by
  have hempty := isSound_empty isHead (refusalStatus why)
  obtain ⟨-, hisolation, -⟩ := completed_spec hempty w .http11
  refine ⟨_, isOneResponse_message hempty w .http11, fun hisolated => ?_⟩
  obtain ⟨f, hf⟩ : ∃ f, f ∈ isolationFields := ⟨_, List.mem_cons_self⟩
  have hvalue := hisolated f hf
  rw [hisolation f hf] at hvalue
  cases hvalue

/-- **A request is answered with nothing or one response, which is isolated.** -/
theorem isOneResponse_request (site : OpenSite) (w : Surroundings) (q : Site.Request) :
    (serveRequest site w q).sent = [] ∨
      ∃ r, IsOneResponse (OpenSite.asksForHead q) (serveRequest site w q).sent r ∧
        r.fields.IsIsolated := by
  cases hanswer : (site.answer w.tree w.caller q).response with
  | none => exact Or.inl (by simp only [serveRequest, hanswer])
  | some r =>
    have hsent : (serveRequest site w q).sent = message w q.version r := by
      simp only [serveRequest, hanswer]
    rw [hsent]
    obtain ⟨hsound, hisolated⟩ := OpenSite.isSound_of_answer hanswer
    obtain ⟨-, hisolation, -⟩ := completed_spec hsound w q.version
    refine Or.inr ⟨_, isOneResponse_message hsound w q.version, fun f hf => ?_⟩
    rw [hisolation f hf]
    exact hisolated f hf

theorem method_of_requestOf {h : Head} {q : Site.Request} (hq : requestOf h = .ok q) :
    q.method = h.method := by
  unfold requestOf at hq
  split at hq
  · cases hq
  · cases hq
    rfl

/-- Whether what is passed on asks for the head of an answer only. -/
def asksForHeadOnly (incoming : Incoming ε) : Bool :=
  (passedOn incoming).any fun h => h.method == Site.methodHead

/-- **What is well framed is answered with isolation**, and so is what is rejected. -/
theorem isOneResponse_of_wellFramed (site : OpenSite) (w : Surroundings)
    {incoming : Incoming Trouble} (hall : ∀ h ∈ passedOn incoming, WellFramed h) :
    (serve site w incoming).sent = [] ∨
      ∃ r, IsOneResponse (asksForHeadOnly incoming) (serve site w incoming).sent r ∧
        r.fields.IsIsolated := by
  rcases serve_cases site w incoming with ⟨-, hnothing⟩ | ⟨why, hpass, hserve⟩ | ⟨h, hpass, hserve⟩
  · exact Or.inl hnothing
  · rw [hserve, asksForHeadOnly, hpass]
    exact Or.inr ⟨_, isOneResponse_rejection site w why⟩
  · obtain ⟨q, hq⟩ := (exists_requestOf_iff (isAcceptable_of_passedOn hpass)).mpr (hall h hpass)
    have honly : asksForHeadOnly incoming = OpenSite.asksForHead q := by
      simp [asksForHeadOnly, hpass, OpenSite.asksForHead, method_of_requestOf hq]
    rw [hserve, honly]
    simp only [serveHead, hq]
    exact isOneResponse_request site w q

/-- **What is passed on and not well framed is answered without isolation.** -/
theorem isOneResponse_of_not_wellFramed (site : OpenSite) (w : Surroundings)
    {incoming : Incoming Trouble} {h : Head} (hpass : passedOn incoming = some h)
    (hbad : ¬ WellFramed h) :
    ∃ r, IsOneResponse (asksForHeadOnly incoming) (serve site w incoming).sent r ∧
      ¬ r.fields.IsIsolated := by
  rcases serve_cases site w incoming with ⟨hnone, -⟩ | ⟨why, hnone, -⟩ | ⟨h', hpass', hserve⟩
  · rw [hpass] at hnone
    cases hnone
  · rw [hpass] at hnone
    cases hnone
  · cases hpass.symm.trans hpass'
    rw [hserve]
    cases hrequest : requestOf h with
    | error why =>
      simp only [serveHead, hrequest]
      exact isOneResponse_refusal _ w why
    | ok q =>
      exact absurd ((exists_requestOf_iff (isAcceptable_of_passedOn hpass)).mp ⟨q, hrequest⟩) hbad

/-- **Isolation on the wire.**  Whatever comes in, and however it arrives, what is sent is nothing
or exactly one response; that response is isolated except where a head was passed on that is not
well framed; and those heads are the ones that the second reading refuses. -/
theorem sent_isolated_iff (site : OpenSite) (w : Surroundings) (incoming : Incoming Trouble) :
    ((serve site w incoming).sent = [] ∨
      ∃ r, IsOneResponse (asksForHeadOnly incoming) (serve site w incoming).sent r ∧
        (r.fields.IsIsolated ↔ ∀ h ∈ passedOn incoming, WellFramed h)) ∧
    ∀ h ∈ passedOn incoming, (∃ q, requestOf h = .ok q) ↔ WellFramed h := by
  refine ⟨?_, fun h hh => exists_requestOf_iff (isAcceptable_of_passedOn hh)⟩
  by_cases hall : ∀ h ∈ passedOn incoming, WellFramed h
  · rcases isOneResponse_of_wellFramed site w hall with hnothing | ⟨r, hone, hisolated⟩
    · exact Or.inl hnothing
    · exact Or.inr ⟨r, hone, fun _ => hall, fun _ => hisolated⟩
  · push Not at hall
    obtain ⟨h, hpass, hbad⟩ := hall
    obtain ⟨r, hone, hbare⟩ := isOneResponse_of_not_wellFramed site w hpass hbad
    exact Or.inr ⟨r, hone, fun hisolated => absurd hisolated hbare, fun hall =>
      absurd (hall h hpass) hbad⟩

/-- A request in the old version with a transfer coding. -/
def oldAndCoded : Bytes := ascii "GET / HTTP/1.0\r\nTransfer-Encoding: chunked\r\n\r\n"

/-- **Not everything is isolated**: a request in the old version with a transfer coding is passed
on, and its answer has no isolation header. -/
theorem not_forall_isolated :
    ¬ ∀ (site : OpenSite) (w : Surroundings) (incoming : Incoming Trouble),
      (serve site w incoming).sent = [] ∨
        ∃ r, IsOneResponse (asksForHeadOnly incoming) (serve site w incoming).sent r ∧
          r.fields.IsIsolated := by
  intro hall
  have hpass : passedOn ([.octets oldAndCoded] : Incoming Trouble) =
      some ⟨ascii "GET", ascii "/", .http10, [(ascii "Transfer-Encoding", ascii "chunked")]⟩ := by
    decide +kernel
  have hbad : ¬ WellFramed
      ⟨ascii "GET", ascii "/", .http10, [(ascii "Transfer-Encoding", ascii "chunked")]⟩ :=
    fun hwf => absurd (hwf.version rfl _ List.mem_cons_self) (by decide +kernel)
  have site : OpenSite := ⟨.default, [Path.slash], none⟩
  have w : Surroundings := ⟨⟨[]⟩, .other, ⟨⟨0, 0⟩, 0⟩, 0, .v4 ⟨127, 0, 0, 1⟩⟩
  obtain ⟨r, hone, hbare⟩ := isOneResponse_of_not_wellFramed site w hpass hbad
  rcases hall site w [.octets oldAndCoded] with hnothing | ⟨r', hone', hisolated⟩
  · rw [hnothing] at hone
    cases hone.read
  · cases hone.read.symm.trans hone'.read
    exact hbare hisolated

end IsolatedSite.Connection
