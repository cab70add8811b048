/-
# Where redirects lead

A folder that is asked for without a slash at the end of its path is redirected to the path with
the slash.  A browser resolves that location against the URL it asked for: one that starts with a
single slash (`IsPathAbsolute`) stays on the server, but what stands behind two slashes is the name
of another one (`authority?`).

The translation of a path drops empty pieces, and the location repeats the path as it came.  So the
location stays on the server exactly if the path does not start with two slashes
(`redirect_stays_iff`), and every folder that is redirected at all is also redirected under a path
that does (`redirected_elsewhere`).
-/
import IsolatedSite.Proofs.ListingLinks

namespace IsolatedSite

open IsolatedSite.Http IsolatedSite.Http.Fields

/-! ## 1. References -/

namespace Reference

/-- A reference that starts with one slash and no more. -/
def IsPathAbsolute (reference : Bytes) : Prop :=
  reference[0]? = some Path.slash ∧ reference[1]? ≠ some Path.slash

instance (reference : Bytes) : Decidable (IsPathAbsolute reference) :=
  inferInstanceAs (Decidable (_ ∧ _))

/-- The server that a reference names: what stands behind two slashes at its start. -/
def authority? (reference : Bytes) : Option Bytes :=
  (afterStart? [Path.slash, Path.slash] reference).map fun rest =>
    rest.takeWhile fun b => ! Target.endsAuthority b

/-- **A reference that starts with a slash** names a server unless it is path-absolute. -/
theorem isPathAbsolute_iff (rest : Bytes) :
    IsPathAbsolute (Path.slash :: rest) ↔ authority? (Path.slash :: rest) = none := by
  cases rest with
  | nil => decide
  | cons b rest =>
    by_cases hb : Path.slash = b
    · simp [IsPathAbsolute, authority?, afterStart?, hb]
    · simp [IsPathAbsolute, authority?, afterStart?, hb, Ne.symm hb]

theorem head?_encode_eq_slash_iff {t : Text} :
    (Utf8.encode t).head? = some Path.slash ↔ t.head? = some '/' := by
  cases t with
  | nil => simp [Utf8.encode]
  | cons c t =>
    have hascii : Path.slash ≤ 0x7F := by decide
    have hslash : Char.ofNat Path.slash.toNat = '/' := by decide
    rw [Utf8.encode_cons, List.head?_append_of_ne_nil _ (Utf8.utf8EncodeChar_ne_nil c),
      List.head?_cons, Option.some.injEq]
    constructor
    · intro h
      have hmem := (Utf8.mem_utf8EncodeChar_iff hascii).mp (List.mem_of_head? h)
      exact hmem.symm.trans hslash
    · rintro rfl
      decide

theorem encode_cons_slash (t : Text) :
    Utf8.encode ('/' :: t) = Path.slash :: Utf8.encode t := by
  have hslash : String.utf8EncodeChar '/' = [Path.slash] := by decide
  rw [Utf8.encode_cons, hslash, List.singleton_append]

theorem isPathAbsolute_encode_iff {t : Text} :
    IsPathAbsolute (Utf8.encode ('/' :: t)) ↔ t.head? ≠ some '/' := by
  rw [encode_cons_slash, ne_eq, ← head?_encode_eq_slash_iff]
  simp [IsPathAbsolute, List.head?_eq_getElem?]

end Reference

/-! ## 2. Redirects -/

namespace OpenSite

open Reference

variable {site : OpenSite} {t : Files.Tree} {who : Files.Caller}

/-- An inquiry asks for a folder without a slash at the end of its path, and the path with the slash
can be sent. -/
structure IsRedirected (site : OpenSite) (t : Files.Tree) (who : Files.Caller)
    (q : Site.Inquiry) : Prop where
  asks : ∃ folder mode, site.AsksFor t who q folder (.folder mode)
  slash : endsInSlash q.path = false
  sendable : (Utf8.encode (slashedLocation q)).all isValueByte = true

/-- The redirect to the path with the slash. -/
def redirectOf (q : Site.Inquiry) : Response :=
  ⟨.movedPermanently, [(location, Utf8.encode (slashedLocation q)),
    (contentLength, Decimal.bytes 0)], []⟩

theorem serve_of_asksForFolder {q : Site.Inquiry} {folder : Path} {mode : Nat}
    (h : site.AsksFor t who q folder (.folder mode)) (hslash : endsInSlash q.path = false) :
    (site.serve t who q).response = some (redirectAnswer (slashedLocation q)).response := by
  obtain ⟨l, hl, hholds⟩ := contained_iff.mp h.contained
  exact serve_of_unslashed h.translated (Files.Tree.isFolder_iff.mpr ⟨mode, h.found⟩) hslash hl
    hholds

theorem IsRedirected.response {q : Site.Inquiry} (h : site.IsRedirected t who q) :
    (site.serve t who q).response = some (redirectOf q) := by
  obtain ⟨folder, mode, hasks⟩ := h.asks
  rw [serve_of_asksForFolder hasks h.slash, redirectAnswer_eq, if_pos h.sendable]
  rfl

/-- **There are no other redirects.** -/
theorem isRedirected_of_status {q : Site.Inquiry} {r : Response}
    (hr : (site.serve t who q).response = some r) (hstatus : r.status = .movedPermanently) :
    site.IsRedirected t who q ∧ r = redirectOf q := by
  obtain ⟨folder, mode, hasks, hslash⟩ := asksForFolder_of_movedPermanently hr hstatus
  have hredirect := serve_of_asksForFolder hasks hslash
  rw [redirectAnswer_eq] at hredirect
  by_cases hsendable : (Utf8.encode (slashedLocation q)).all isValueByte = true
  · rw [if_pos hsendable] at hredirect
    exact ⟨⟨⟨folder, mode, hasks⟩, hslash, hsendable⟩,
      Option.some.inj (hr.symm.trans hredirect)⟩
  · rw [if_neg hsendable] at hredirect
    cases hr.symm.trans hredirect
    exact absurd (hstatus : Status.ok = .movedPermanently) (by decide)

/-- A request is redirected if it is one that files are served for and its inquiry is redirected. -/
theorem isRedirected_of_answer {q : Site.Request} {r : Response}
    (hr : (site.answer t who q).response = some r) (hstatus : r.status = .movedPermanently) :
    (q.method = Site.methodGet ∨ q.method = Site.methodHead) ∧
      site.IsRedirected t who (.ofRequest q) ∧ r = site.finished (redirectOf (.ofRequest q)) := by
  by_cases hmethod : q.method = Site.methodGet ∨ q.method = Site.methodHead
  · rw [response_answer hmethod, Option.map_eq_some_iff] at hr
    obtain ⟨inner, hinner, rfl⟩ := hr
    rw [status_finished] at hstatus
    obtain ⟨hredirected, rfl⟩ := isRedirected_of_status hinner hstatus
    exact ⟨hmethod, hredirected, rfl⟩
  · simp only [answer, handle, if_neg hmethod, Reply.ofBuilt, Option.map_some,
      Option.some.injEq] at hr
    have hother : r.status = .notImplemented := by
      rw [← hr]
      exact (status_sign _).trans (status_errorAnswer _ _ _)
    exact absurd (hstatus.symm.trans hother) (by decide)

theorem answer_of_isRedirected {q : Site.Request}
    (hmethod : q.method = Site.methodGet ∨ q.method = Site.methodHead)
    (h : site.IsRedirected t who (.ofRequest q)) :
    (site.answer t who q).response = some (site.finished (redirectOf (.ofRequest q))) := by
  rw [response_answer hmethod, h.response, Option.map_some]

/-- Naming the server and isolating the answer leave the location as it is. -/
theorem valuesOf_location_finished (q : Site.Inquiry) :
    (site.finished (redirectOf q)).fields.valuesOf location =
      [Utf8.encode (slashedLocation q)] := by
  rw [valuesOf_finished (by simp [ownNames]) (by decide)]
  rfl

/-! ## 3. One slash or two -/

/-- A location goes on where its path ends, with a slash. -/
theorem slashedLocation_eq (q : Site.Inquiry) :
    ∃ rest, slashedLocation q = q.path ++ '/' :: rest := by
  unfold slashedLocation
  cases q.query with
  | none => exact ⟨[], rfl⟩
  | some query => exact ⟨'?' :: query, by simp⟩

/-- **A location starts with the slashes of its path**, and two of them name a server. -/
theorem isPathAbsolute_slashedLocation {q : Site.Inquiry} (hfirst : q.path.head? = some '/')
    (hlast : endsInSlash q.path = false) :
    (IsPathAbsolute (Utf8.encode (slashedLocation q)) ↔ ¬ ['/', '/'] <+: q.path) ∧
      (authority? (Utf8.encode (slashedLocation q)) = none ↔ ¬ ['/', '/'] <+: q.path) := by
  obtain ⟨rest, hrest⟩ := slashedLocation_eq q
  obtain ⟨p, hp⟩ := List.head?_eq_some_iff.mp hfirst
  rw [hp] at hlast hrest ⊢
  have habsolute : IsPathAbsolute (Utf8.encode (slashedLocation q)) ↔
      ¬ ['/', '/'] <+: '/' :: p := by
    rw [hrest]
    cases p with
    | nil => exact absurd hlast (by decide)
    | cons c p =>
      rw [List.cons_append, isPathAbsolute_encode_iff]
      simp [List.cons_prefix_cons, eq_comm]
  refine ⟨habsolute, ?_⟩
  rw [hrest, List.cons_append, encode_cons_slash] at habsolute ⊢
  exact (isPathAbsolute_iff _).symm.trans habsolute

/-- **A redirect stays on the server** exactly if the path that was asked for does not start with
two slashes; otherwise its location names a server. -/
theorem redirect_stays_iff {q : Site.Request} {r : Response}
    (hslash : q.target.path.head? = some '/') (hr : (site.answer t who q).response = some r)
    (hstatus : r.status = .movedPermanently) :
    ∃ reference, r.fields.valuesOf location = [reference] ∧
      (IsPathAbsolute reference ↔ ¬ ['/', '/'] <+: q.target.path) ∧
      (authority? reference = none ↔ ¬ ['/', '/'] <+: q.target.path) := by
  obtain ⟨-, hredirected, rfl⟩ := isRedirected_of_answer hr hstatus
  exact ⟨_, valuesOf_location_finished _,
    isPathAbsolute_slashedLocation hslash hredirected.slash⟩

/-! ## 4. More slashes -/

/-- A request with one more slash in front of its path. -/
def withSlash (q : Site.Request) : Site.Request :=
  { q with target := { q.target with path := '/' :: q.target.path } }

/-- **A slash in front of a path** leads nowhere else. -/
theorem translate?_cons_slash (root : Path) (p : Text) :
    Site.translate? root ('/' :: p) = Site.translate? root p :=
  Site.translate?_append_slash root [] p

theorem IsRedirected.withSlash {q : Site.Request} (hslash : q.target.path.head? = some '/')
    (h : site.IsRedirected t who (.ofRequest q)) :
    site.IsRedirected t who (.ofRequest (withSlash q)) where
  asks := by
    obtain ⟨folder, mode, hasks⟩ := h.asks
    exact ⟨folder, mode, (translate?_cons_slash _ _).trans hasks.translated, hasks.found,
      hasks.contained⟩
  slash := by
    obtain ⟨p, hp⟩ := List.head?_eq_some_iff.mp hslash
    have hlast := h.slash
    simp only [Site.Inquiry.ofRequest, OpenSite.withSlash, endsInSlash, hp] at hlast ⊢
    rwa [List.getLast?_cons_cons]
  sendable := by
    have hlocation : slashedLocation (.ofRequest (OpenSite.withSlash q)) =
        '/' :: slashedLocation (.ofRequest q) := by
      simp only [slashedLocation, Site.Inquiry.ofRequest, OpenSite.withSlash]
      cases q.target.query <;> rfl
    rw [hlocation, encode_cons_slash, List.all_cons, h.sendable]
    decide

/-- **Every redirect has a double that leaves the server**: with one more slash in front of the path
the same folder is redirected, to a location that names a server. -/
theorem redirected_elsewhere {q : Site.Request} {r : Response}
    (hslash : q.target.path.head? = some '/') (hr : (site.answer t who q).response = some r)
    (hstatus : r.status = .movedPermanently) :
    ∃ r' reference, (site.answer t who (withSlash q)).response = some r' ∧
      r'.status = .movedPermanently ∧ r'.fields.valuesOf location = [reference] ∧
      ∃ server, authority? reference = some server := by
  obtain ⟨hmethod, hredirected, -⟩ := isRedirected_of_answer hr hstatus
  have hdouble := hredirected.withSlash hslash
  refine ⟨_, _, answer_of_isRedirected (q := withSlash q) hmethod hdouble, status_finished _,
    valuesOf_location_finished _, Option.ne_none_iff_exists'.mp fun hnone => ?_⟩
  obtain ⟨p, hp⟩ := List.head?_eq_some_iff.mp hslash
  have hone := (isPathAbsolute_slashedLocation rfl hdouble.slash).2.mp hnone
  exact hone (by simp [Site.Inquiry.ofRequest, withSlash, hp])

/-- A site with a folder `docs`. -/
def treeWithDocs : Files.Tree :=
  ⟨[([ascii "www"], .folder 0o755), ([ascii "www", ascii "docs"], .folder 0o755)]⟩

/-- A request for a path of that site, and where its folder is moved to. -/
def requestFor (path : String) : Site.Request :=
  ⟨Site.methodGet, ⟨path.toList, none⟩, .http11, []⟩

/-- The answer to it, where the path leads to the folder. -/
def movedFrom (path : String) : Response :=
  siteOfWww.finished (redirectOf (.ofRequest (requestFor path)))

/-- The folder under its own path is moved to a place on the server. -/
theorem docs_stays :
    (siteOfWww.answer treeWithDocs .other (requestFor "/docs")).response =
      some (movedFrom "/docs") ∧
      ∃ reference, (movedFrom "/docs").fields.valuesOf location = [reference] ∧
        IsPathAbsolute reference := by
  have hanswer : (siteOfWww.answer treeWithDocs .other (requestFor "/docs")).response =
      some (movedFrom "/docs") := by decide +kernel
  obtain ⟨reference, hvalues, habsolute, -⟩ :=
    redirect_stays_iff (by decide) hanswer (by decide +kernel)
  exact ⟨hanswer, reference, hvalues, habsolute.mpr (by decide)⟩

/-- **Not every redirect stays**: the same folder under two slashes is moved to the server
`docs`. -/
theorem docs_leaves :
    ¬ ∀ (site : OpenSite) (t : Files.Tree) (who : Files.Caller) (q : Site.Request)
        (r : Response),
      q.target.path.head? = some '/' → (site.answer t who q).response = some r →
        r.status = .movedPermanently →
          ∃ reference, r.fields.valuesOf location = [reference] ∧ IsPathAbsolute reference := by
  intro hall
  have hanswer : (siteOfWww.answer treeWithDocs .other (requestFor "//docs")).response =
      some (movedFrom "//docs") := by decide +kernel
  have hvalues : (movedFrom "//docs").fields.valuesOf location = [ascii "//docs/"] := by
    decide +kernel
  obtain ⟨reference, hreference, habsolute⟩ :=
    hall _ _ _ _ _ (by decide) hanswer (by decide +kernel)
  obtain rfl : ascii "//docs/" = reference :=
    List.singleton_inj.mp (hvalues.symm.trans hreference)
  exact absurd habsolute (by decide)

/-- The server that it names. -/
example : authority? (ascii "//docs/") = some (ascii "docs") := by decide

end OpenSite

end IsolatedSite
