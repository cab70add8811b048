/-
# The head of an answer

A request for the head of an answer gets what the request for the whole answer gets, less its body.
Nothing on the way to an answer looks at which of the two it is, and the builders announce the
length of the body before they leave it out, so the two ways run side by side: one step of handling
after the other, they find the same things, note the same things and fail alike (`Mirrors`).
-/
import IsolatedSite.Proofs.FileAnswers

namespace IsolatedSite

open IsolatedSite.Http IsolatedSite.Http.Fields

/-! ## 1. Answers without their bodies -/

namespace Http

/-- An answer less its body. -/
def Response.bodyless (r : Response) : Response := { r with body := [] }

theorem Response.bodyless_of_body {r : Response} (h : r.body = []) : r.bodyless = r := by
  rw [bodyless, ← h]

/-- What is built is an answer and the same one less its body, or fails alike. -/
structure Built.Mirrors (head whole : Built) : Prop where
  response : head.response = whole.response.bodyless
  failed : head.failed = whole.failed

/-- **The body is left out last.**  All that is built from fields and a content is the same for both
requests, whether the fields can be sent or not. -/
theorem mirrors_build (shape : Text) (status fallback : Status) (fields : List (Bytes × Text))
    (content : Bytes) :
    Built.Mirrors (build shape status fallback fields (bodyUnless true content))
      (build shape status fallback fields (bodyUnless false content)) := by
  unfold build
  dsimp only
  split <;> exact ⟨rfl, rfl⟩

theorem mirrors_errorAnswer (s : Status) (message : Option Text) :
    Built.Mirrors (errorAnswer s message true) (errorAnswer s message false) :=
  mirrors_build ..

end Http

/-! ## 2. Handling side by side -/

namespace Site

/-- The same inquiry, for the head of the answer or for all of it. -/
def Inquiry.asking (q : Inquiry) (isHead : Bool) : Inquiry := { q with isHead := isHead }

namespace Handling

variable {α β : Type}

/-- Two ways of handling give the same answer, less its body in the first, or the same failure, and
note the same things. -/
structure Mirrors (head whole : Handling Response) : Prop where
  result : head.result = whole.result.map Response.bodyless
  notices : head.notices = whole.notices

/-- **A step that both take** is followed by what both do after it. -/
theorem Mirrors.bind (h : Handling α) {head whole : α → Handling Response}
    (hnext : ∀ a, Mirrors (head a) (whole a)) : Mirrors (h >>= head) (h >>= whole) := by
  obtain ⟨result, notices⟩ := h
  cases result with
  | error e => exact ⟨rfl, rfl⟩
  | ok a => exact ⟨(hnext a).result, congrArg (notices ++ ·) (hnext a).notices⟩

/-- **A question that both ask** is followed by what both do for its answer. -/
theorem Mirrors.ite (c : Prop) [Decidable c] {head head' whole whole' : Handling Response}
    (hthen : Mirrors head whole) (helse : Mirrors head' whole') :
    Mirrors (if c then head else head') (if c then whole else whole') := by
  split
  · exact hthen
  · exact helse

theorem mirrors_ofBuilt {head whole : Built} (h : head.Mirrors whole) :
    Mirrors (ofBuilt head) (ofBuilt whole) := by
  refine ⟨?_, ?_⟩
  · simp [ofBuilt, h.response, Except.map]
  · simp [ofBuilt, h.failed]

/-- An answer that has no body anyway is the same for both. -/
theorem mirrors_of_body {b : Built} (h : b.response.body = []) :
    Mirrors (ofBuilt b) (ofBuilt b) :=
  mirrors_ofBuilt ⟨(Response.bodyless_of_body h).symm, rfl⟩

theorem mirrors_fail (e : Failure) : Mirrors (fail e) (fail e) := ⟨rfl, rfl⟩

theorem mirrors_failWith (n : Notice) (e : Failure) : Mirrors (failWith n e) (failWith n e) :=
  ⟨rfl, rfl⟩

end Handling

end Site

namespace OpenSite

open Site.Handling

variable (site : OpenSite) (t : Files.Tree) (who : Files.Caller) (q : Site.Inquiry)

theorem mirrors_serveFile (path : Path) :
    Mirrors (site.serveFile t who (q.asking true) path)
      (site.serveFile t who (q.asking false) path) := by
  refine .bind _ fun _ => .bind _ fun node => .bind _ fun unchanged => ?_
  cases unchanged with
  | true =>
    refine .bind _ fun date => mirrors_of_body ?_
    exact (isSound_notModifiedAnswer date true).bodyless (Or.inl rfl)
  | false =>
    exact .bind _ fun content => .bind _ fun date => mirrors_ofBuilt (mirrors_build ..)

theorem mirrors_serveListing (folder : Path) :
    Mirrors (serveListing t who (q.asking true) folder)
      (serveListing t who (q.asking false) folder) := by
  unfold serveListing
  cases Site.rowsOf t who folder with
  | ok rows => exact mirrors_ofBuilt (mirrors_build ..)
  | error e => exact mirrors_failWith _ _

theorem mirrors_serveFolder (folder : Path) :
    Mirrors (site.serveFolder t who (q.asking true) folder)
      (site.serveFolder t who (q.asking false) folder) := by
  refine .ite (¬ endsInSlash q.path) (mirrors_of_body ?_) ?_
  · exact (isSound_redirectAnswer _ true).bodyless (Or.inl rfl)
  · cases site.indexPath? t who folder with
    | some index => exact mirrors_serveFile site t who q index
    | none => exact .ite _ (mirrors_serveListing t who q folder) (mirrors_fail _)

/-- **What is found** for the two requests is the same. -/
theorem mirrors_resolve :
    Mirrors (site.resolve t who (q.asking true)) (site.resolve t who (q.asking false)) := by
  refine .bind _ fun target => .bind _ fun node => .bind _ fun _ => ?_
  have hfile : Mirrors
      (if endsInSlash q.path then fail .notFound
        else site.serveFile t who (q.asking true) target)
      (if endsInSlash q.path then fail .notFound
        else site.serveFile t who (q.asking false) target) :=
    .ite _ (mirrors_fail _) (mirrors_serveFile site t who q target)
  cases node with
  | folder mode => exact mirrors_serveFolder site t who q target
  | file content modified mode => exact hfile
  | link target' => exact hfile

/-! ## 3. Replies side by side -/

/-- A reply less the body of its answer. -/
def Reply.bodyless (reply : Reply) : Reply :=
  { reply with response := reply.response.map Response.bodyless }

/-- **Error pages** lose their bodies like other answers. -/
theorem serve_asking :
    site.serve t who (q.asking true) = (site.serve t who (q.asking false)).bodyless := by
  obtain ⟨hresult, hnotices⟩ := mirrors_resolve site t who q
  simp only [serve, hresult, hnotices]
  cases (site.resolve t who (q.asking false)).result with
  | ok r => rfl
  | error e =>
    cases hpage : e.page? with
    | none => simp [Except.map, hpage, Reply.bodyless]
    | some page =>
      obtain ⟨hresponse, hfailed⟩ := mirrors_errorAnswer page.1 (some page.2)
      simp [Except.map, hpage, Reply.bodyless, Site.Inquiry.asking, hresponse, hfailed]

theorem sign_bodyless (r : Response) : site.sign r.bodyless = (site.sign r).bodyless := by
  simp only [sign]
  split <;> rfl

theorem handle_head (target : Target) (version : Version) (fields : Fields) :
    site.handle t who ⟨Site.methodHead, target, version, fields⟩ =
      (site.handle t who ⟨Site.methodGet, target, version, fields⟩).bodyless := by
  have hserve := serve_asking site t who (.ofRequest ⟨Site.methodGet, target, version, fields⟩)
  have hhead : Site.Inquiry.ofRequest ⟨Site.methodHead, target, version, fields⟩ =
      (Site.Inquiry.ofRequest ⟨Site.methodGet, target, version, fields⟩).asking true := by rfl
  have hget : (Site.Inquiry.ofRequest ⟨Site.methodGet, target, version, fields⟩).asking false =
      Site.Inquiry.ofRequest ⟨Site.methodGet, target, version, fields⟩ := by rfl
  simp [handle, hhead, hserve, hget, Reply.bodyless, Function.comp_def, sign_bodyless]

/-- **The head is that of the whole.**  Whatever a site, its files and a request are, the request
for the head is answered like the request for the whole: by an answer of the same status and the
same fields in the same order, but without a body, or by none.  The length that an answer to the
request for the whole announces is that of its body, and where it announces none there is no body. -/
theorem head_mirrors_get (target : Target) (version : Version) (fields : Fields) :
    site.handle t who ⟨Site.methodHead, target, version, fields⟩ =
      (site.handle t who ⟨Site.methodGet, target, version, fields⟩).bodyless ∧
    site.answer t who ⟨Site.methodHead, target, version, fields⟩ =
      (site.answer t who ⟨Site.methodGet, target, version, fields⟩).bodyless ∧
    ∀ r, ((site.handle t who ⟨Site.methodGet, target, version, fields⟩).response = some r ∨
        (site.answer t who ⟨Site.methodGet, target, version, fields⟩).response = some r) →
      r.fields.valuesOf contentLength = [Decimal.bytes r.body.length] ∨
        (r.fields.valuesOf contentLength = [] ∧ r.body = []) := by
  have hhandle := handle_head site t who target version fields
  have hwhole : asksForHead ⟨Site.methodGet, target, version, fields⟩ = false := by rfl
  refine ⟨hhandle, ?_, ?_⟩
  · simp only [answer, hhandle, Reply.bodyless, Option.map_map]
    rfl
  · rintro r (hr | hr)
    · exact (isSound_of_handle hr).length hwhole
    · exact (isSound_of_answer hr).1.length hwhole

end OpenSite

end IsolatedSite
