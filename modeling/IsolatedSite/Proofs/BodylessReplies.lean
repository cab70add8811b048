/-
# What a request for a head is sent

The answer to a request for a head has no body, whoever builds it: the site leaves it out, and so
does the connection where it refuses a head that was passed on.  A head that is rejected is
answered by a third one, which does not look at the method.  So what a request for a head is sent
has no body exactly if its head is not rejected (`bodyless_iff_not_rejected`).

The method is that of the octets themselves (`methodToken?`), in whatever portions they arrive: what
was read of them is a beginning of them, and a token that has ended is the same in all that follows.
-/
import IsolatedSite.Proofs.AsciiOctets
import IsolatedSite.Proofs.IsolationOnWire

namespace IsolatedSite

open IsolatedSite.Http IsolatedSite.Http.Fields

/-! ## 1. The method of octets -/

namespace Http

/-- A chain of scanners gives what its last one gives behind the others. -/
theorem Scan.bind_eq_done_iff {ε α β : Type} {s : Scan ε α} {next : α → Bytes → Scan ε β}
    {b : β} {rest : Bytes} : s.bind next = .done b rest ↔
      ∃ a behind, s = .done a behind ∧ next a behind = .done b rest := by
  cases s with
  | waiting => simp
  | refused e => simp
  | done a behind => simp

namespace Head

/-- The token that a request begins with, behind empty lines, once it has ended. -/
def scanToken (b : Bytes) : Scan Fault Bytes :=
  (scanEmptyLines b).bind fun _ rest => Scan.run isTokenByte rest

/-- The method that octets begin with. -/
def methodToken? (b : Bytes) : Option Bytes :=
  match scanToken b with
  | .done m _ => some m
  | _ => none

theorem steady_scanToken : Scan.Steady scanToken :=
  steady_scanEmptyLines.bind fun _ => Scan.steady_run isTokenByte

theorem methodToken?_eq_some_iff {b m : Bytes} :
    methodToken? b = some m ↔ ∃ rest, scanToken b = .done m rest := by
  unfold methodToken?
  cases scanToken b <;> simp

/-- A method that has ended is not changed by what follows. -/
theorem methodToken?_append {b m : Bytes} (h : methodToken? b = some m) (more : Bytes) :
    methodToken? (b ++ more) = some m := by
  obtain ⟨rest, hrest⟩ := methodToken?_eq_some_iff.mp h
  refine methodToken?_eq_some_iff.mpr ⟨rest ++ more, ?_⟩
  rw [steady_scanToken b more (by simp [hrest]), hrest]
  rfl

/-- A method is scanned behind the empty lines, and only if it is not empty. -/
theorem exists_run_of_scan {b rest : Bytes} {h : Head} (hscan : scan b = .done h rest) :
    h.method ≠ [] ∧ ∃ b₁ b₂, scanEmptyLines b = .done () b₁ ∧
      (Scan.run isTokenByte b₁ : Scan Fault Bytes) = .done h.method b₂ := by
  obtain ⟨_, b₁, hempty, hscan⟩ := Scan.bind_eq_done_iff.mp hscan
  obtain ⟨m, _, hmethod, hscan⟩ := Scan.bind_eq_done_iff.mp hscan
  obtain ⟨_, _, _, hscan⟩ := Scan.bind_eq_done_iff.mp hscan
  obtain ⟨_, _, _, hscan⟩ := Scan.bind_eq_done_iff.mp hscan
  obtain ⟨_, _, _, hscan⟩ := Scan.bind_eq_done_iff.mp hscan
  obtain ⟨_, _, _, hscan⟩ := Scan.bind_eq_done_iff.mp hscan
  cases hscan
  obtain ⟨token, b₂, hrun, hmethod⟩ := Scan.bind_eq_done_iff.mp hmethod
  obtain ⟨_, _, -, hmethod⟩ := Scan.bind_eq_done_iff.mp hmethod
  split at hmethod
  · cases hmethod
  · rename_i hne
    cases hmethod
    exact ⟨hne, b₁, b₂, hempty, hrun⟩

/-- **A head that was scanned has the method of its octets.** -/
theorem methodToken?_of_scan {b rest : Bytes} {h : Head} (hscan : scan b = .done h rest) :
    methodToken? b = some h.method := by
  obtain ⟨-, b₁, b₂, hempty, hrun⟩ := exists_run_of_scan hscan
  exact methodToken?_eq_some_iff.mpr ⟨b₂, by rw [scanToken, hempty, Scan.done_bind, hrun]⟩

/-- It has a method: a token. -/
theorem isToken_method_of_scan {b rest : Bytes} {h : Head} (hscan : scan b = .done h rest) :
    isToken h.method = true := by
  obtain ⟨hne, b₁, b₂, -, hrun⟩ := exists_run_of_scan hscan
  have hall : h.method.all isTokenByte = true := by
    unfold Scan.run at hrun
    split at hrun
    · cases hrun
    · obtain ⟨hmethod, -⟩ := Scan.done.inj hrun
      rw [← hmethod, List.all_takeWhile]
  rw [isToken, hall, Bool.and_true]
  simpa using hne

end Head

end Http

/-! ## 2. The head that is read -/

namespace Connection

variable {ε : Type}

/-- **What was read of a head that is passed on** is a beginning of what comes in. -/
theorem prefix_of_readHeadFrom {fuel : Nat} {seen read : Bytes} {s : Incoming ε}
    (h : (readHeadFrom fuel seen s).1 = .complete read) : read <+: seen ++ s.unread := by
  fun_induction readHeadFrom fuel seen s with
  | case1 seen s => split at h <;> cases h
  | case2 => cases h
  | case3 fuel seen s rest hread => split at h <;> cases h
  | case4 fuel seen s rest x xs hread seen' head hv =>
    rw [← Incoming.unread_of_read hread, ← List.append_assoc]
    exact HeadOutcome.complete.inj h ▸ List.prefix_append _ _
  | case5 => cases h
  | case6 => cases h
  | case7 fuel seen s rest x xs hread seen' hv hmax ih =>
    rw [← Incoming.unread_of_read hread, ← List.append_assoc]
    exact ih h

/-- The head that is passed on has the method of what comes in. -/
theorem method_of_passedOn {incoming : Incoming ε} {h : Head} {m : Bytes}
    (hpass : passedOn incoming = some h) (hm : Head.methodToken? incoming.unread = some m) :
    h.method = m := by
  obtain ⟨read, hread, hv⟩ := passedOn_eq_some_iff.mp hpass
  obtain ⟨⟨rest, hscan⟩, -⟩ := Head.verdict?_eq_ok_iff.mp hv
  obtain ⟨more, hmore⟩ := prefix_of_readHeadFrom hread
  have htoken := Head.methodToken?_append (Head.methodToken?_of_scan hscan) more
  rw [hmore, List.nil_append, hm] at htoken
  exact (Option.some.inj htoken).symm

/-! ## 3. Replies without a body -/

/-- What is sent is nothing, or a response that ends with its header block. -/
def IsBodyless (sent : Bytes) : Prop :=
  sent = [] ∨ ∃ r, Response.read? sent = some r ∧ r.body = []

theorem IsOneResponse.isBodyless {sent : Bytes} {r : Response} (h : IsOneResponse true sent r) :
    IsBodyless sent := Or.inr ⟨r, h.read, h.bodyless (Or.inl rfl)⟩

/-- **A head that is passed on** is answered without a body if its method asks for none. -/
theorem isBodyless_serveHead (site : OpenSite) (w : Surroundings) {h : Head}
    (hmethod : h.method = Site.methodHead) : IsBodyless (serveHead site w h).sent := by
  cases hrequest : requestOf h with
  | error why =>
    simp only [serveHead, hrequest]
    obtain ⟨r, hone, -⟩ := isOneResponse_refusal true w why
    exact hone.isBodyless
  | ok q =>
    simp only [serveHead, hrequest]
    have hhead : OpenSite.asksForHead q = true := by
      rw [OpenSite.asksForHead, method_of_requestOf hrequest, hmethod]
      exact beq_self_eq_true _
    rcases isOneResponse_request site w q with hnothing | ⟨r, hone, -⟩
    · exact Or.inl hnothing
    · rw [hhead] at hone
      exact hone.isBodyless

theorem errorPage_ne_nil (s : Status) (message : Text) : errorPage s message ≠ [] := by
  unfold errorPage
  exact List.append_ne_nil_of_right_ne_nil _ (by decide)

theorem body_rejectionAnswer_ne_nil (site : OpenSite) (w : Surroundings) (why : Rejection) :
    (rejectionAnswer site w why).body ≠ [] := by
  simp only [rejectionAnswer, OpenSite.body_sign, Response.isolate, errorAnswer_eq]
  exact Utf8.encode_ne_nil (errorPage_ne_nil _ _)

/-- **A rejection always has a body**, whatever was asked for. -/
theorem not_isBodyless_serveRejection (site : OpenSite) (w : Surroundings) (why : Rejection) :
    ¬ IsBodyless (serveRejection site w why).sent := by
  have hread := (isOneResponse_rejection site w why).1.read
  rintro (hnothing | ⟨r, hr, hbody⟩)
  · rw [hnothing] at hread
    cases hread
  · obtain rfl := Option.some.inj (hread.symm.trans hr)
    exact body_rejectionAnswer_ne_nil site w why hbody

theorem serve_of_rejected (site : OpenSite) (w : Surroundings) {incoming : Incoming Trouble}
    {why : Rejection} (h : (readHead incoming).1 = .rejected why) :
    serve site w incoming = serveRejection site w why := by
  simp only [serve, h]

/-- **A request for a head is sent no body** exactly if its head is not rejected.  The method is
that of the octets, however they arrive and whatever follows it. -/
theorem bodyless_iff_not_rejected (site : OpenSite) (w : Surroundings)
    {incoming : Incoming Trouble}
    (hmethod : Head.methodToken? incoming.unread = some Site.methodHead) :
    IsBodyless (serve site w incoming).sent ↔
      ∀ why, (readHead incoming).1 ≠ .rejected why := by
  constructor
  · intro hbodyless why hread
    rw [serve_of_rejected site w hread] at hbodyless
    exact not_isBodyless_serveRejection site w why hbodyless
  · intro hnot
    cases hread : (readHead incoming).1 with
    | closed => exact Or.inl (by simp only [serve, hread])
    | failed cause => exact Or.inl (by simp only [serve, hread])
    | rejected why => exact absurd hread (hnot why)
    | complete read =>
      obtain ⟨h, hpass, hserve⟩ := serve_of_complete site w hread
      rw [hserve]
      exact isBodyless_serveHead site w (method_of_passedOn hpass hmethod)

/-- A site of the whole tree. -/
def bareSite : OpenSite := ⟨.default, [Path.slash], none⟩

/-- The surroundings of a connection to it where there are no files. -/
def bareSurroundings : Surroundings :=
  ⟨⟨[]⟩, .other, ⟨⟨0, 0⟩, 0⟩, 0, .v4 ⟨127, 0, 0, 1⟩⟩

/-- A request for a head in two portions, which cut its method in two. -/
def headInTwo : Incoming Trouble :=
  Incoming.ofPieces [ascii "HE", ascii "AD / HTTP/1.1\r\nHost: a\r\n\r\n"]

/-- It is passed on, and what is sent has no body. -/
theorem headInTwo_bodyless :
    Head.methodToken? headInTwo.unread = some Site.methodHead ∧
      (readHead headInTwo).1 = .complete headInTwo.unread ∧
      IsBodyless (serve bareSite bareSurroundings headInTwo).sent := by
  have hmethod : Head.methodToken? headInTwo.unread = some Site.methodHead := by decide +kernel
  have hread : (readHead headInTwo).1 = .complete headInTwo.unread := by decide +kernel
  refine ⟨hmethod, hread, (bodyless_iff_not_rejected _ _ hmethod).mpr fun why => ?_⟩
  rw [hread]
  exact nofun

/-- A request for a head with a content length that is no number. -/
def headOfNoLength : Incoming Trouble :=
  Incoming.ofPieces [ascii "HEAD / HTTP/1.1\r\nContent-Length: nope\r\n\r\n"]

/-- **Not every request for a head is answered without a body**: one with a content length that is
no number is rejected, with an error page. -/
theorem not_forall_bodyless :
    ¬ ∀ (site : OpenSite) (w : Surroundings) (incoming : Incoming Trouble),
      Head.methodToken? incoming.unread = some Site.methodHead →
        IsBodyless (serve site w incoming).sent := by
  intro hall
  have hmethod : Head.methodToken? headOfNoLength.unread = some Site.methodHead := by
    decide +kernel
  have hread : (readHead headOfNoLength).1 = .rejected .malformed := by decide +kernel
  have hbodyless := hall bareSite bareSurroundings headOfNoLength hmethod
  rw [serve_of_rejected _ _ hread] at hbodyless
  exact not_isBodyless_serveRejection _ _ _ hbodyless

end Connection

end IsolatedSite
