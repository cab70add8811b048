/-
# The answer for a file

`Gives` says what an answer rests on; here is the way back.  Which file an inquiry selects is
decided by its path alone (`Selects.congr`), and there is one at most (`Selects.unique`), so a
file that is selected, lies under the root and has a date is what the inquiry is answered with:
with its content, or, where the client has it already, with its date alone
(`serve_of_selectsFile`).

Signing and isolating an answer, which `finished` puts together, leaves its status, its body and the
fields of a file as they are.
-/
import IsolatedSite.Proofs.Containment

namespace IsolatedSite

open IsolatedSite.Http IsolatedSite.Http.Fields

namespace OpenSite

variable {site : OpenSite} {t : Files.Tree} {who : Files.Caller} {q q' : Site.Inquiry}

/-! ## 1. Selecting a file -/

theorem AsksFor.congr {target : Path} {node : Files.Node} (h : site.AsksFor t who q target node)
    (hpath : q'.path = q.path) : site.AsksFor t who q' target node :=
  ⟨hpath ▸ h.translated, h.found, h.contained⟩

/-- **Conditions select nothing**: inquiries about one path select the same file. -/
theorem Selects.congr {p : Path} (h : site.Selects t who q p) (hpath : q'.path = q.path) :
    site.Selects t who q' p := by
  cases h with
  | itself hasks hfolder hslash => exact .itself (hasks.congr hpath) hfolder (hpath ▸ hslash)
  | index hasks hslash hindex => exact .index (hasks.congr hpath) (hpath ▸ hslash) hindex

theorem AsksFor.unique {target target' : Path} {node node' : Files.Node}
    (h : site.AsksFor t who q target node) (h' : site.AsksFor t who q target' node') :
    target = target' ∧ node = node' := by
  obtain rfl : target = target' := Option.some.inj (h.translated.symm.trans h'.translated)
  exact ⟨rfl, Except.ok.inj (h.found.symm.trans h'.found)⟩

/-- **One file at most is selected.**  The slash at the end of the path decides which case it is. -/
theorem Selects.unique {p p' : Path} (h : site.Selects t who q p) (h' : site.Selects t who q p') :
    p = p' := by
  cases h with
  | itself hasks _ hslash =>
    cases h' with
    | itself hasks' _ _ => exact (hasks.unique hasks').1
    | index _ hslash' _ => exact absurd (hslash.symm.trans hslash') (by decide)
  | index hasks hslash hindex =>
    cases h' with
    | itself _ _ hslash' => exact absurd (hslash'.symm.trans hslash) (by decide)
    | index hasks' _ hindex' =>
      obtain ⟨rfl, -⟩ := hasks.unique hasks'
      exact Option.some.inj (hindex.symm.trans hindex')

/-! ## 2. From the file to the answer -/

/-- What is selected is what is served. -/
theorem Selects.result_resolve {p : Path} (h : site.Selects t who q p) :
    (site.resolve t who q).result = (site.serveFile t who q p).result := by
  cases h with
  | @itself _ node hasks hfolder hslash =>
    rw [hasks.result_resolve]
    cases node with
    | folder mode => exact absurd rfl (hfolder mode)
    | file content modified mode => simp [hslash]
    | link target => simp [hslash]
  | index hasks hslash hindex =>
    rw [resolve_of_folder hasks.translated hasks.found hasks.contained]
    simp [serveFolder, hslash, hindex]

/-- **A selected file is answered with**, or with the word that it has not changed. -/
theorem serve_of_selectsFile {p : Path} {node : Files.Node} {date : Text}
    (h : site.SelectsFile t who q p node date) {unchanged : Bool} {content : Bytes}
    (hunchanged : Site.isNotModified? q.ifModifiedSince q.hasIfNoneMatch (modifiedOf node) =
      some unchanged)
    (hread : unchanged = false → t.read who [] p = .ok content) :
    (site.serve t who q).response = some (if unchanged then (notModifiedAnswer date).response
      else (fileAnswer content (ContentType.ofPath p) date q.isHead).response) := by
  have hresult : (site.resolve t who q).result = .ok (if unchanged then
      (notModifiedAnswer date).response
      else (fileAnswer content (ContentType.ofPath p) date q.isHead).response) := by
    rw [h.selects.result_resolve, serveFile,
      Site.Handling.result_bind_of_ok (ensureContained_eq_ok.mpr h.contained),
      Site.Handling.result_bind_of_ok (Site.Handling.result_ofFiles_eq_ok.mpr h.found),
      Site.Handling.result_bind_of_ok (Site.Handling.result_orFail_eq_ok.mpr hunchanged)]
    have hdate : (Site.Handling.orFail .undatable (Calendar.httpDate? (modifiedOf node))).result =
        .ok date := Site.Handling.result_orFail_eq_ok.mpr h.dated
    cases unchanged with
    | true =>
      rw [if_pos rfl, Site.Handling.result_bind_of_ok hdate]
      rfl
    | false =>
      rw [if_neg (by decide), Site.Handling.result_bind_of_ok
        (Site.Handling.result_ofFiles_eq_ok.mpr (hread rfl)),
        Site.Handling.result_bind_of_ok hdate]
      rfl
  simp only [serve, hresult]

/-! ## 3. From the answer to the file -/

/-- An answer with the status of a success to an inquiry that selects a file is that file. -/
theorem Selects.sent {p : Path} {r : Response} (h : site.Selects t who q p)
    (hserve : (site.serve t who q).response = some r) (hstatus : r.status = .ok) :
    ∃ node date content, site.SelectsFile t who q p node date ∧ t.read who [] p = .ok content ∧
      r = (fileAnswer content (ContentType.ofPath p) date q.isHead).response := by
  cases gives_of_serve hserve (Or.inl hstatus) with
  | redirected hasks hslash =>
    cases h with
    | itself hasks' hfolder _ =>
      obtain ⟨rfl, rfl⟩ := hasks.unique hasks'
      exact absurd rfl (hfolder _)
    | index _ hslash' _ => exact absurd (hslash.symm.trans hslash') (by decide)
  | listed hasks hslash hindex =>
    cases h with
    | itself _ _ hslash' => exact absurd (hslash.symm.trans hslash') (by decide)
    | index hasks' _ hindex' =>
      obtain ⟨rfl, -⟩ := hasks.unique hasks'
      exact absurd (hindex.symm.trans hindex') (by simp)
  | unchanged hsel _ =>
    rw [notModifiedAnswer_eq (Calendar.isPlain_of_httpDate? hsel.dated)] at hstatus
    have hsame : Status.notModified = .ok := hstatus
    exact absurd hsame (by decide)
  | @sent p' node date content hsel _ hread =>
    obtain rfl := h.unique hsel.selects
    exact ⟨node, date, content, hsel, hread, rfl⟩

/-! ## 4. The finished answer -/

/-- An answer as it leaves the site: signed and isolated. -/
def finished (site : OpenSite) (r : Response) : Response := (site.sign r).isolate

theorem response_answer {q : Site.Request}
    (h : q.method = Site.methodGet ∨ q.method = Site.methodHead) :
    (site.answer t who q).response =
      (site.serve t who (.ofRequest q)).response.map site.finished := by
  simp only [answer, handle, if_pos h, Option.map_map]
  rfl

/-- A request for the whole answer is no request for its head. -/
theorem isHead_ofRequest {q : Site.Request} (h : q.method = Site.methodGet) :
    (Site.Inquiry.ofRequest q).isHead = false := by
  simp only [Site.Inquiry.ofRequest, h]
  decide

theorem status_sign (r : Response) : (site.sign r).status = r.status := by
  simp only [sign]
  split <;> rfl

theorem status_finished (r : Response) : (site.finished r).status = r.status := status_sign r

theorem body_finished (r : Response) : (site.finished r).body = r.body := body_sign r

theorem valuesOf_finished {name : Bytes} (h : name ∈ ownNames) (hne : name ≠ ascii "server")
    (r : Response) : (site.finished r).fields.valuesOf name = r.fields.valuesOf name := by
  have hisolation : ∀ f ∈ isolationFields, name ≠ f.1 := fun f hf =>
    (Connection.ne_of_mem_ownNames h f hf).symm
  rw [finished, Response.isolate, valuesOf_isolate_of_ne hisolation, valuesOf_sign hne]

end OpenSite

end IsolatedSite
