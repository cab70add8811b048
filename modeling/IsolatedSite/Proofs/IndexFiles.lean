/-
# A folder answers like its index file

The index file of a folder is reached in two ways.  For the path of the folder its name is joined to
the path that was found, and it is checked after the folder was; for its own path the name is read
off the URL, and it is checked once when it is looked up and again when it is sent.  Both lead to
one path, since the escaped name is translated from where the path of the folder leads to
(`Site.translate?_append_of_endsInSlash`), and a check that is made twice in a row gives what it
gives once (`Site.Handling.result_bind_twice`).  So the two requests get the same response
(`folder_answers_like_index`): the file, the word that it has not changed, or the error page for a
file that lies outside the root or cannot be read.  The candidates behind it and the listing have no
part in it.

The notices are not the same: they name the path that was asked for.
-/
import IsolatedSite.Proofs.Redirects

namespace IsolatedSite

open IsolatedSite.Http

/-! ## 1. Results without their notices -/

namespace Site

namespace Handling

variable {α β : Type}

theorem result_bind_congr {h h' : Handling α} {next next' : α → Handling β}
    (hfirst : h.result = h'.result) (hnext : ∀ a, (next a).result = (next' a).result) :
    (h >>= next).result = (h' >>= next').result := by
  simp only [result_bind, hfirst, hnext]

/-- **A check that is made twice** in a row gives what it gives once. -/
theorem result_bind_twice {h h' : Handling Unit} (hsame : h.result = h'.result)
    (next : Unit → Handling β) : (h >>= fun _ => h' >>= next).result = (h' >>= next).result := by
  cases hresult : h'.result with
  | error e =>
    rw [result_bind_of_error (hsame.trans hresult), result_bind_of_error hresult]
  | ok a => rw [result_bind_of_ok (hsame.trans hresult)]

end Handling

/-- Two inquiries that differ in what they ask for only: not in whether they want the head, nor in
their conditions. -/
structure Inquiry.IsAlike (q q' : Inquiry) : Prop where
  isHead : q'.isHead = q.isHead
  ifModifiedSince : q'.ifModifiedSince = q.ifModifiedSince
  hasIfNoneMatch : q'.hasIfNoneMatch = q.hasIfNoneMatch

theorem Inquiry.isAlike_refl (q : Inquiry) : q.IsAlike q := ⟨rfl, rfl, rfl⟩

end Site

namespace OpenSite

open Site.Handling

variable {site site' : OpenSite} {t : Files.Tree} {who : Files.Caller} {q q' : Site.Inquiry}

/-- Where the root is the same, whether a path lies under it does not depend on what was asked. -/
theorem result_ensureContained_congr (hroot : site'.root = site.root) (target : Path)
    (requested requested' : Text) : (site'.ensureContained t who target requested').result =
      (site.ensureContained t who target requested).result := by
  refine result_bind_congr rfl fun real => ?_
  rw [hroot]
  split <;> rfl

/-- **What a file is answered with** depends on the root and the conditions, but not on the path
that was asked for. -/
theorem result_serveFile_congr (hroot : site'.root = site.root) (halike : q.IsAlike q')
    (path : Path) :
    (site'.serveFile t who q' path).result = (site.serveFile t who q path).result := by
  refine result_bind_congr (result_ensureContained_congr hroot path _ _) fun _ => ?_
  rw [halike.isHead, halike.ifModifiedSince, halike.hasIfNoneMatch]

/-- A file that is asked for without a slash is what is sent, whether or not it lies under the
root: the check is made again when it is. -/
theorem result_resolve_of_file {p : Path} {content : Bytes} {modified : Calendar.Instant}
    {mode : Nat} (htarget : Site.translate? site.root q.path = some p)
    (hstat : t.stat who [] p = .ok (.file content modified mode))
    (hslash : endsInSlash q.path = false) :
    (site.resolve t who q).result = (site.serveFile t who q p).result := by
  rw [resolve, result_bind_of_ok (result_orFail_eq_ok.mpr htarget),
    result_bind_of_ok (result_ofFiles_eq_ok.mpr hstat)]
  simp only [hslash, Bool.false_eq_true, if_false]
  exact result_bind_twice rfl _

/-- Inquiries that come to the same result get the same response. -/
theorem response_serve_congr (halike : q.IsAlike q')
    (hresult : (site'.resolve t who q').result = (site.resolve t who q).result) :
    (site'.serve t who q').response = (site.serve t who q).response := by
  simp only [serve, hresult, halike.isHead]
  split
  · rfl
  · split <;> rfl

/-- Requests by one method whose inquiries get the same response get the same response, from sites
of one name. -/
theorem response_answer_congr {r r' : Site.Request}
    (hserver : site'.settings.server = site.settings.server) (hmethod : r'.method = r.method)
    (hserve : (site'.serve t who (.ofRequest r')).response =
      (site.serve t who (.ofRequest r)).response) :
    (site'.answer t who r').response = (site.answer t who r).response := by
  have hsign : site'.sign = site.sign := by
    funext response
    simp only [sign, hserver]
  simp only [answer, handle, hmethod, hsign]
  split
  · rw [hserve]
  · rfl

/-! ## 2. The first index file -/

/-- The name of the first index file that is a file in a folder. -/
def firstIndex? (site : OpenSite) (t : Files.Tree) (who : Files.Caller) (folder : Path) :
    Option Text :=
  site.settings.serve.indexFiles.find? fun name =>
    t.isFile who [] (Path.join folder (Utf8.encode name))

variable {folder : Path} {mode : Nat} {name : Text}

theorem indexPath?_of_firstIndex? (h : site.firstIndex? t who folder = some name) :
    site.indexPath? t who folder = some (Path.join folder (Utf8.encode name)) := by
  rw [firstIndex?] at h
  rw [indexPath?, List.find?_map]
  exact congrArg (Option.map _) h

/-- The first index file is a file. -/
theorem exists_stat_of_firstIndex? (h : site.firstIndex? t who folder = some name) :
    ∃ content modified mode, t.stat who [] (Path.join folder (Utf8.encode name)) =
      .ok (.file content modified mode) := by
  rw [firstIndex?] at h
  have hfile := List.find?_some h
  exact Files.Tree.isFile_iff.mp hfile

/-- What is there has no NUL in its name. -/
theorem isFileName_of_firstIndex? (h : site.firstIndex? t who folder = some name)
    (hname : Files.IsName (Utf8.encode name)) : Site.IsFileName name := by
  obtain ⟨content, modified, mode, hstat⟩ := exists_stat_of_firstIndex? h
  obtain ⟨l, hl, -⟩ := Files.Tree.stat_eq_ok_iff.mp hstat
  refine ⟨hname, fun hnul => (Files.Tree.admitted_of_locate hl).1 ?_⟩
  rw [Path.join_of_not_isAbsolute _ hname.isAbsolute_eq]
  exact List.mem_append_right _ hnul

/-- **The path of a folder** selects its first index file, whatever else the site is set to. -/
theorem result_resolve_of_firstIndex? (hasks : site.AsksFor t who q folder (.folder mode))
    (hslash : endsInSlash q.path = true) (hindex : site.firstIndex? t who folder = some name) :
    (site.resolve t who q).result =
      (site.serveFile t who q (Path.join folder (Utf8.encode name))).result :=
  (Selects.index hasks hslash (indexPath?_of_firstIndex? hindex)).result_resolve

/-- **The escaped name behind the path of a folder** is the path of the index file. -/
theorem result_resolve_behind (hasks : site.AsksFor t who q folder (.folder mode))
    (hslash : endsInSlash q.path = true) (hindex : site.firstIndex? t who folder = some name)
    (hname : Files.IsName (Utf8.encode name)) (hpath : q'.path = q.path ++ Percent.encode name) :
    (site.resolve t who q').result =
      (site.serveFile t who q' (Path.join folder (Utf8.encode name))).result := by
  have hfile := isFileName_of_firstIndex? hindex hname
  obtain ⟨content, modified, mode, hstat⟩ := exists_stat_of_firstIndex? hindex
  refine result_resolve_of_file ?_ hstat ?_
  · rw [hpath, Site.translate?_append_of_endsInSlash hslash hasks.translated]
    exact Site.translate?_encode hfile folder
  · rw [hpath]
    exact endsInSlash_append_encode q.path hfile.ne_nil

/-! ## 3. Two requests with one response -/

/-- A request with more behind its path. -/
def behind (q : Site.Request) (more : Text) : Site.Request :=
  { q with target := { q.target with path := q.target.path ++ more } }

theorem isAlike_behind (q : Site.Request) (more : Text) :
    (Site.Inquiry.ofRequest q).IsAlike (.ofRequest (behind q more)) := ⟨rfl, rfl, rfl⟩

/-- Asking for a folder goes by the root of a site alone. -/
theorem AsksFor.of_root {target : Path} {node : Files.Node}
    (h : site.AsksFor t who q target node) (hroot : site'.root = site.root) :
    site'.AsksFor t who q target node where
  translated := hroot ▸ h.translated
  found := h.found
  contained := by
    obtain ⟨real, hreal, hstart⟩ := h.contained
    exact ⟨real, hreal, hroot ▸ hstart⟩

/-- **A folder answers like its index file.**  Let a request ask for a folder under the root, with a
slash at the end of its path, and let the first of the index files that is a file there be one whose
name is a name.  The response is that to the same request with the escaped name behind the path,
whatever the file is and wherever it lies: a link that leads out of the root, a file that cannot be
read, one that the client has already.  And it is the response of every site of the same root and
name that has the same first index file, whatever comes behind it and whether or not folders are
listed. -/
theorem folder_answers_like_index {q : Site.Request}
    (hasks : site.AsksFor t who (.ofRequest q) folder (.folder mode))
    (hslash : endsInSlash q.target.path = true)
    (hindex : site.firstIndex? t who folder = some name)
    (hname : Files.IsName (Utf8.encode name)) :
    (site.answer t who q).response =
        (site.answer t who (behind q (Percent.encode name))).response ∧
      ∀ site' : OpenSite, site'.root = site.root →
        site'.settings.server = site.settings.server →
        site'.firstIndex? t who folder = some name →
        (site'.answer t who q).response = (site.answer t who q).response := by
  have hfolder := result_resolve_of_firstIndex? hasks hslash hindex
  constructor
  · have halike := isAlike_behind q (Percent.encode name)
    have hresult : (site.resolve t who (.ofRequest (behind q (Percent.encode name)))).result =
        (site.resolve t who (.ofRequest q)).result := by
      rw [result_resolve_behind hasks hslash hindex hname rfl, hfolder]
      exact result_serveFile_congr rfl halike _
    have hmethod : (behind q (Percent.encode name)).method = q.method := rfl
    exact (response_answer_congr rfl hmethod (response_serve_congr halike hresult)).symm
  · intro site' hroot hserver hindex'
    have halike := (Site.Inquiry.ofRequest q).isAlike_refl
    have hresult : (site'.resolve t who (.ofRequest q)).result =
        (site.resolve t who (.ofRequest q)).result := by
      rw [result_resolve_of_firstIndex? (hasks.of_root hroot) hslash hindex', hfolder]
      exact result_serveFile_congr hroot halike _
    exact response_answer_congr hserver rfl (response_serve_congr halike hresult)

/-- A folder whose first candidate is a folder, and whose second one is a link out of the root. -/
def treeWithOddIndex : Files.Tree :=
  ⟨[([ascii "www"], .folder 0o755), ([ascii "www", ascii "d"], .folder 0o755),
    ([ascii "www", ascii "d", ascii "index.html"], .folder 0o755),
    ([ascii "www", ascii "d", ascii "index.htm"], .link (ascii "/secret")),
    ([ascii "secret"], .file (ascii "s") ⟨0, 0⟩ 0o644)]⟩

/-- The same site without listings. -/
def unlistedSite : OpenSite :=
  { siteOfWww with settings := { siteOfWww.settings with
    serve := { siteOfWww.settings.serve with directoryListing := false } } }

/-- **The link is not passed over**: the folder is forbidden like the link, with listings and
without. -/
theorem oddIndex_forbidden :
    ∃ r, (siteOfWww.answer treeWithOddIndex .other (requestFor "/d/")).response = some r ∧
      r.status = .forbidden ∧
      (siteOfWww.answer treeWithOddIndex .other (requestFor "/d/index.htm")).response = some r ∧
      (unlistedSite.answer treeWithOddIndex .other (requestFor "/d/")).response = some r := by
  have hasks : siteOfWww.AsksFor treeWithOddIndex .other (.ofRequest (requestFor "/d/"))
      (ascii "/www/d") (.folder 0o755) :=
    ⟨by decide +kernel, by decide +kernel, ascii "/www/d", by decide +kernel, by decide +kernel⟩
  have hindex : siteOfWww.firstIndex? treeWithOddIndex .other (ascii "/www/d") =
      some "index.htm".toList := by
    decide +kernel
  have hname : Files.IsName (Utf8.encode "index.htm".toList) :=
    ⟨by decide, by decide, by decide, by decide⟩
  have hbehind : behind (requestFor "/d/") (Percent.encode "index.htm".toList) =
      requestFor "/d/index.htm" := by
    decide +kernel
  obtain ⟨hfile, hother⟩ := folder_answers_like_index hasks (by decide) hindex hname
  have hanswer : (siteOfWww.answer treeWithOddIndex .other (requestFor "/d/")).response =
      some (siteOfWww.finished (forbiddenPage (.ofRequest (requestFor "/d/")))) := by
    decide +kernel
  refine ⟨_, hanswer, (status_finished _).trans (status_forbiddenPage _), ?_, ?_⟩
  · rw [← hbehind, ← hfile, hanswer]
  · rw [hother unlistedSite rfl rfl (by decide +kernel), hanswer]

end OpenSite

end IsolatedSite
