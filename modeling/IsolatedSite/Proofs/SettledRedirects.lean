/-
# Redirects settle after one step

Whether a folder is redirected is decided by the path as it was sent, and where the path leads to by
the decoded one.  The two do not look at the same slashes: a path may end in an escaped slash, in
half an escape or in pieces that are dropped.  Nevertheless one step is enough
(`redirects_settle`).  The location is the target with one more slash at the end of its path; it is
read as that target again (`Target.IsWellFormed.parse?_written`), which leads to the same folder
(`Site.translate?_concat_slash`) and is not redirected, whatever it leads to
(`not_redirected_of_slash`).
-/
import IsolatedSite.Proofs.Redirects
import IsolatedSite.Proofs.Targets

namespace IsolatedSite

open IsolatedSite.Http IsolatedSite.Http.Fields

/-! ## 1. One more slash -/

namespace Http.Target

/-- A target with one more slash at the end of its path. -/
def slashed (target : Target) : Target := { target with path := target.path ++ ['/'] }

@[simp] theorem slashed_path (target : Target) : target.slashed.path = target.path ++ ['/'] := rfl

@[simp] theorem slashed_query (target : Target) : target.slashed.query = target.query := rfl

theorem IsWellFormed.slashed {target : Target} (h : target.IsWellFormed) :
    target.slashed.IsWellFormed where
  path b hb := by
    rw [slashed_path, Utf8.encode_append] at hb
    rcases List.mem_append.mp hb with hb | hb
    · exact h.path b hb
    · have hslash : (Utf8.encode ['/']).all isPathByte = true := by decide
      exact List.all_eq_true.mp hslash b hb
  query := h.query

theorem head?_slashed {target : Target} (h : target.path.head? = some '/') :
    target.slashed.path.head? = some '/' := by
  obtain ⟨path, hpath⟩ := List.head?_eq_some_iff.mp h
  simp [hpath]

end Http.Target

namespace OpenSite

variable {site : OpenSite} {t : Files.Tree} {who : Files.Caller}

theorem endsInSlash_slashed (target : Target) : endsInSlash target.slashed.path = true := by
  simp [endsInSlash]

/-- **The location of a redirect** is the target with the slash, written out. -/
theorem encode_slashedLocation (q : Site.Request) :
    Utf8.encode (slashedLocation (.ofRequest q)) = q.target.slashed.written := by
  obtain ⟨method, ⟨path, query⟩, version, fields⟩ := q
  cases query with
  | none =>
    rw [Target.written_of_no_query rfl]
    rfl
  | some query =>
    have hmark : Utf8.encode "/?".toList = Utf8.encode ['/'] ++ [63] := by decide
    rw [Target.written_of_query rfl, Target.slashed_path, Utf8.encode_append, List.append_assoc]
    simp only [slashedLocation, Site.Inquiry.ofRequest, Utf8.encode_append, hmark,
      List.append_assoc, List.singleton_append]

/-! ## 2. The second request -/

/-- **What ends in a slash** is not redirected, whatever the tree holds. -/
theorem not_redirected_of_slash {q : Site.Request} {r : Response}
    (hslash : endsInSlash q.target.path = true) (hr : (site.answer t who q).response = some r) :
    r.status ≠ .movedPermanently := by
  intro hstatus
  obtain ⟨-, hredirected, -⟩ := isRedirected_of_answer hr hstatus
  exact absurd (hslash.symm.trans hredirected.slash) (by decide)

/-- **Redirects settle after one step.**  A request is redirected, if at all, to its own target with
one more slash at the end of the path and with the same query, if it has one.  If the target was
read, the path and the query come apart again where the first question mark of the location is, and
the location, unless it is too long, is read as that target.  The new path leads where the old one
does, and a request for the new target is not redirected again, not even if the tree has changed. -/
theorem redirects_settle {q : Site.Request} {r : Response}
    (hr : (site.answer t who q).response = some r) (hstatus : r.status = .movedPermanently) :
    r.fields.valuesOf location = [q.target.slashed.written] ∧
      (∀ octets, Target.parse? octets = some q.target →
        cutAt 63 q.target.slashed.written = q.target.query.map (fun query =>
          (Utf8.encode q.target.slashed.path, Utf8.encode query)) ∧
        (q.target.path.head? = some '/' →
          q.target.slashed.written.length ≤ Target.maxLength →
          Target.parse? q.target.slashed.written = some q.target.slashed)) ∧
      (∀ root, Site.translate? root q.target.slashed.path =
        Site.translate? root q.target.path) ∧
      ∀ (t' : Files.Tree) (who' : Files.Caller) (next : Site.Request) (r' : Response),
        next.target = q.target.slashed → (site.answer t' who' next).response = some r' →
          r'.status ≠ .movedPermanently := by
  refine ⟨?_, fun octets hread => ?_, fun root => Site.translate?_concat_slash root q.target.path,
    fun t' who' next r' hnext hr' => ?_⟩
  · obtain ⟨-, -, rfl⟩ := isRedirected_of_answer hr hstatus
    rw [valuesOf_location_finished, encode_slashedLocation]
  · have hwell := (Target.isWellFormed_of_parse? hread).slashed
    exact ⟨hwell.cutAt_written,
      fun hfirst => hwell.parse?_written (Target.head?_slashed hfirst)⟩
  · exact not_redirected_of_slash (hnext ▸ endsInSlash_slashed q.target) hr'

/-- A folder that is asked for with an escaped slash at the end of the path, and an empty query. -/
def requestForEscapedSlash : Site.Request :=
  ⟨Site.methodGet, ⟨"/docs%2F".toList, some []⟩, .http11, []⟩

/-- **The escaped slash** stays where it is, in front of the one that is added. -/
theorem escapedSlash_settles :
    ∃ r, (siteOfWww.answer treeWithDocs .other requestForEscapedSlash).response = some r ∧
      r.fields.valuesOf location = [ascii "/docs%2F/?"] ∧
      cutAt 63 (ascii "/docs%2F/?") = some (ascii "/docs%2F/", []) ∧
      ∀ next r', next.target = ⟨"/docs%2F/".toList, some []⟩ →
        (siteOfWww.answer treeWithDocs .other next).response = some r' →
          r'.status ≠ .movedPermanently := by
  have hanswer : (siteOfWww.answer treeWithDocs .other requestForEscapedSlash).response =
      some (siteOfWww.finished (redirectOf (.ofRequest requestForEscapedSlash))) := by
    decide +kernel
  have hread : Target.parse? (ascii "/docs%2F?") = some requestForEscapedSlash.target := by
    decide +kernel
  obtain ⟨hlocation, hcut, -, hnext⟩ := redirects_settle hanswer (by decide +kernel)
  have hwritten : requestForEscapedSlash.target.slashed.written = ascii "/docs%2F/?" := by
    decide +kernel
  refine ⟨_, hanswer, hwritten ▸ hlocation, ?_, fun next r' => hnext treeWithDocs .other next r'⟩
  rw [← hwritten, (hcut _ hread).1]
  rfl

end OpenSite

end IsolatedSite
