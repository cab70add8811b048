/-
# Nothing outside the root is served

The path of an inquiry is translated by its text, looked up through links, looked up again for its
canonical form, put together with the name of an index file, and read.  All of these lead to one
location (`Files.Tree.locate`), and an answer that shows anything shows what stands at a location
under the root (`serves_only_within_root`).  Under the root means that the names of the root's
location begin those of the other (`holds_iff`), so a neighbour whose name only begins like the
root's is not meant.

What lies outside is forbidden, whether it is asked for itself or as the index of a folder.  Only
the redirect of a folder without a slash at the end of its path comes before its index is looked
for (`outside_index_of_unslashed_folder`).
-/
import IsolatedSite.Proofs.Locations
import IsolatedSite.Proofs.SoundAnswers

namespace IsolatedSite

open IsolatedSite.Http IsolatedSite.Http.Fields

namespace OpenSite

variable {site : OpenSite} {t : Files.Tree} {who : Files.Caller} {q : Site.Inquiry}

/-! ## 1. The locations of a site -/

/-- A location lies under the root, name by name. -/
def Holds (site : OpenSite) (l : Files.Location) : Prop :=
  Path.components site.root <+: .root :: l.map .normal

instance (site : OpenSite) (l : Files.Location) : Decidable (site.Holds l) :=
  inferInstanceAs (Decidable (_ <+: _))

theorem startsWith_iff_holds {l : Files.Location} (h : l.IsProper) :
    Path.startsWith (Files.Tree.pathOf l) site.root = true ↔ site.Holds l := by
  rw [Path.startsWith, Files.Tree.components_pathOf h, List.isPrefixOf_iff_prefix]
  rfl

/-- A site that was opened has the path of the location of its root, and a folder is found there. -/
theorem root_of_ofSettings {s : Settings} {cwd : Files.Location}
    (hopen : ofSettings s t who cwd = .ok site) :
    ∃ root, t.locate who cwd (Utf8.encode s.serve.root) = .ok root ∧
      site.root = Files.Tree.pathOf root ∧ t.isFolder who [] (Files.Tree.pathOf root) = true := by
  unfold ofSettings at hopen
  split at hopen
  · cases hopen
  · rename_i path hcanonical
    obtain ⟨root, hroot, rfl⟩ := Files.Tree.canonical_eq_ok_iff.mp hcanonical
    split at hopen
    · rename_i hfolder
      exact ⟨root, hroot, (congrArg OpenSite.root (Except.ok.inj hopen)).symm, hfolder⟩
    · cases hopen

/-- **The root of a site that was opened** is a location, and a location lies under the root exactly
if it begins with the names of that location. -/
theorem holds_iff {s : Settings} {cwd : Files.Location} (hcwd : cwd.IsProper)
    (hopen : ofSettings s t who cwd = .ok site) :
    ∃ root, t.locate who cwd (Utf8.encode s.serve.root) = .ok root ∧
      ∀ l, site.Holds l ↔ root <+: l := by
  obtain ⟨root, hroot, hpath, -⟩ := root_of_ofSettings hopen
  have hproper := Files.Tree.isProper_of_locate hcwd hroot
  refine ⟨root, hroot, fun l => ?_⟩
  rw [Holds, hpath, Files.Tree.components_pathOf hproper, Files.Tree.normal_prefix_iff]

/-- **What the check of containment asks** of a path is that its location lies under the root. -/
theorem contained_iff {p : Path} :
    site.Contained t who p ↔ ∃ l, t.locate who [] p = .ok l ∧ site.Holds l := by
  simp only [Contained, Files.Tree.canonical_eq_ok_iff]
  constructor
  · rintro ⟨_, ⟨l, hl, rfl⟩, hstart⟩
    exact ⟨l, hl, (startsWith_iff_holds (Files.Tree.locate_spec hl).1).mp hstart⟩
  · rintro ⟨l, hl, hholds⟩
    exact ⟨_, ⟨l, hl, rfl⟩, (startsWith_iff_holds (Files.Tree.locate_spec hl).1).mpr hholds⟩

/-! ## 2. What answers show -/

/-- A response shows the file at a location: its content and date, or only its date where the client
has the file already. -/
def ShowsFile (t : Files.Tree) (q : Site.Inquiry) (l : Files.Location) (r : Response) : Prop :=
  ∃ content modified mode date,
    t.find? l = some (.file content modified mode) ∧
    Calendar.httpDate? modified = some date ∧
    r.fields.valuesOf lastModified = [Utf8.encode date] ∧
    ((r.status = .ok ∧ r.body = bodyUnless q.isHead content ∧
        r.fields.valuesOf contentLength = [Decimal.bytes content.length]) ∨
      (r.status = .notModified ∧ r.body = [] ∧
        Site.isNotModified? q.ifModifiedSince q.hasIfNoneMatch modified = some true))

/-- A response shows the names in the folder at a location. -/
def ShowsFolder (t : Files.Tree) (who : Files.Caller) (q : Site.Inquiry) (folder : Path)
    (l : Files.Location) (r : Response) : Prop :=
  ∃ mode rows, t.find? l = some (.folder mode) ∧ Site.rowsOf t who folder = .ok rows ∧
    r.status = .ok ∧
    r.body = bodyUnless q.isHead
      (Utf8.encode (Site.listingPage (Percent.decodeText q.path) rows))

/-- A response shows nothing: an empty one, in place of a redirect to what is no field value. -/
def ShowsNothing (t : Files.Tree) (q : Site.Inquiry) (l : Files.Location) (r : Response) : Prop :=
  (∃ mode, t.find? l = some (.folder mode)) ∧ endsInSlash q.path = false ∧
    (Utf8.encode (slashedLocation q)).all isValueByte = false ∧ r = ⟨.ok, [], []⟩

/-- What is selected to be sent is a file. -/
theorem Selects.isFile {p : Path} (h : site.Selects t who q p) :
    ∃ content modified mode, t.stat who [] p = .ok (.file content modified mode) := by
  cases h with
  | itself hasks hfolder _ =>
    obtain ⟨l, hl, -⟩ := contained_iff.mp hasks.contained
    obtain ⟨node, hstat, hlink⟩ := Files.Tree.exists_stat_of_locate hl
    have heq := Except.ok.inj (hstat.symm.trans hasks.found)
    subst heq
    cases node with
    | file content modified mode => exact ⟨content, modified, mode, hstat⟩
    | folder mode => exact absurd rfl (hfolder mode)
    | link target => exact absurd rfl (hlink target)
  | index _ _ hindex => exact Files.Tree.isFile_iff.mp (List.find?_some hindex)

/-! ## 3. Answers stay within the root -/

/-- **The four answers** show a file or a folder under the root, or nothing. -/
theorem shows_of_gives {r : Response} (h : site.Gives t who q r)
    (hstatus : r.status = .ok ∨ r.status = .notModified) :
    ∃ p l, t.locate who [] p = .ok l ∧ site.Holds l ∧
      ((site.Selects t who q p ∧ ShowsFile t q l r) ∨
        (Site.translate? site.root q.path = some p ∧
          (ShowsFolder t who q p l r ∨ ShowsNothing t q l r))) := by
  cases h with
  | @redirected folder mode hasks hslash =>
    obtain ⟨l, hl, hholds⟩ := contained_iff.mp hasks.contained
    refine ⟨folder, l, hl, hholds, Or.inr ⟨hasks.translated, Or.inr
      ⟨⟨mode, Files.Tree.find?_of_stat hl hasks.found⟩, hslash, ?_⟩⟩⟩
    rw [redirectAnswer_eq] at hstatus ⊢
    cases hvalue : (Utf8.encode (slashedLocation q)).all isValueByte with
    | false => simp
    | true =>
      rw [hvalue, if_pos rfl] at hstatus
      have hmoved : Status.movedPermanently = .ok ∨ Status.movedPermanently = .notModified :=
        hstatus
      exact absurd hmoved (by decide)
  | @listed folder mode rows hasks _ _ _ hrows =>
    obtain ⟨l, hl, hholds⟩ := contained_iff.mp hasks.contained
    refine ⟨folder, l, hl, hholds, Or.inr ⟨hasks.translated, Or.inl
      ⟨mode, rows, Files.Tree.find?_of_stat hl hasks.found, hrows, ?_⟩⟩⟩
    rw [pageAnswer_eq]
    exact ⟨rfl, rfl⟩
  | @unchanged p node date hsel hunchanged =>
    obtain ⟨l, hl, hholds⟩ := contained_iff.mp hsel.contained
    obtain ⟨content, modified, mode, hstat⟩ := hsel.selects.isFile
    cases hsel.found.symm.trans hstat
    refine ⟨p, l, hl, hholds, Or.inl ⟨hsel.selects, content, modified, mode, date,
      Files.Tree.find?_of_stat hl hstat, hsel.dated, ?_⟩⟩
    rw [notModifiedAnswer_eq (Calendar.isPlain_of_httpDate? hsel.dated)]
    exact ⟨valuesOf_cons_self _ _ _, Or.inr ⟨rfl, rfl, hunchanged⟩⟩
  | @sent p node date content hsel _ hread =>
    obtain ⟨l, hl, hholds⟩ := contained_iff.mp hsel.contained
    obtain ⟨modified, mode, hstat⟩ := Files.Tree.stat_of_read hread
    cases hsel.found.symm.trans hstat
    refine ⟨p, l, hl, hholds, Or.inl ⟨hsel.selects, content, modified, mode, date,
      Files.Tree.find?_of_stat hl hstat, hsel.dated, ?_⟩⟩
    rw [fileAnswer_eq content (isPlain_ofPath p) (Calendar.isPlain_of_httpDate? hsel.dated)]
    exact ⟨rfl, Or.inl ⟨rfl, rfl, rfl⟩⟩

theorem status_errorAnswer (s : Status) (message : Option Text) (isHead : Bool) :
    (errorAnswer s message isHead).response.status = s := by
  rw [errorAnswer_eq]

/-- An answer with the status of a success or of a file that has not changed is no error page. -/
theorem gives_of_serve {r : Response} (h : (site.serve t who q).response = some r)
    (hstatus : r.status = .ok ∨ r.status = .notModified) : site.Gives t who q r := by
  rcases gives_or_page_of_serve h with h | ⟨e, status, message, -, hpage, rfl⟩
  · exact h
  · rw [status_errorAnswer] at hstatus
    cases e <;> cases hpage <;> exact absurd hstatus (by decide)

/-! ## 4. What lies outside is forbidden -/

/-- The error page for what must not be seen. -/
def forbiddenPage (q : Site.Inquiry) : Response :=
  (errorAnswer .forbidden (some "Forbidden".toList) q.isHead).response

theorem status_forbiddenPage (q : Site.Inquiry) : (forbiddenPage q).status = .forbidden := by
  rw [forbiddenPage, status_errorAnswer]

theorem serve_of_forbidden (h : (site.resolve t who q).result = .error .forbidden) :
    (site.serve t who q).response = some (forbiddenPage q) := by
  simp only [serve, h, Site.Failure.page?]
  rfl

theorem result_ensureContained_of_outside {p : Path} {l : Files.Location}
    (hl : t.locate who [] p = .ok l) (hout : ¬ site.Holds l) (requested : Text) :
    (site.ensureContained t who p requested).result = .error .forbidden := by
  have hreal : t.canonical who [] p = .ok (Files.Tree.pathOf l) :=
    Files.Tree.canonical_eq_ok_iff.mpr ⟨l, hl, rfl⟩
  have hstart : ¬ Path.startsWith (Files.Tree.pathOf l) site.root = true :=
    mt (startsWith_iff_holds (Files.Tree.locate_spec hl).1).mp hout
  rw [ensureContained,
    Site.Handling.result_bind_of_ok (Site.Handling.result_ofFiles_eq_ok.mpr hreal), if_neg hstart]
  rfl

/-- **What is asked for and lies outside is forbidden.** -/
theorem serve_of_outside {target : Path} {l : Files.Location}
    (htarget : Site.translate? site.root q.path = some target)
    (hl : t.locate who [] target = .ok l) (hout : ¬ site.Holds l) :
    (site.serve t who q).response = some (forbiddenPage q) := by
  obtain ⟨node, hstat, -⟩ := Files.Tree.exists_stat_of_locate hl
  refine serve_of_forbidden ?_
  rw [resolve, Site.Handling.result_bind_of_ok (Site.Handling.result_orFail_eq_ok.mpr htarget),
    Site.Handling.result_bind_of_ok (Site.Handling.result_ofFiles_eq_ok.mpr hstat),
    Site.Handling.result_bind_of_error (result_ensureContained_of_outside hl hout q.path)]

/-- A folder under the root is what its part of the handling makes of it. -/
theorem resolve_of_folder {folder : Path} {mode : Nat}
    (htarget : Site.translate? site.root q.path = some folder)
    (hstat : t.stat who [] folder = .ok (.folder mode)) (hcontained : site.Contained t who folder) :
    (site.resolve t who q).result = (site.serveFolder t who q folder).result :=
  AsksFor.result_resolve ⟨htarget, hstat, hcontained⟩

/-- **An index that lies outside is forbidden.** -/
theorem serve_of_index_outside {folder index : Path} {l : Files.Location}
    (htarget : Site.translate? site.root q.path = some folder)
    (hfolder : t.isFolder who [] folder = true) (hslash : endsInSlash q.path = true)
    (hindex : site.indexPath? t who folder = some index) (hl : t.locate who [] index = .ok l)
    (hout : ¬ site.Holds l) : (site.serve t who q).response = some (forbiddenPage q) := by
  obtain ⟨mode, hstat⟩ := Files.Tree.isFolder_iff.mp hfolder
  obtain ⟨above, habove, -⟩ := Files.Tree.stat_eq_ok_iff.mp hstat
  by_cases hholds : site.Holds above
  · refine serve_of_forbidden ?_
    rw [resolve_of_folder htarget hstat (contained_iff.mpr ⟨above, habove, hholds⟩), serveFolder,
      if_neg (by simp [hslash])]
    simp only [hindex]
    rw [serveFile,
      Site.Handling.result_bind_of_error (result_ensureContained_of_outside hl hout q.path)]
  · exact serve_of_outside htarget habove hholds

/-- **A folder without a slash at the end of its path is redirected**, whatever it holds. -/
theorem serve_of_unslashed {folder : Path} {l : Files.Location}
    (htarget : Site.translate? site.root q.path = some folder)
    (hfolder : t.isFolder who [] folder = true) (hslash : endsInSlash q.path = false)
    (hl : t.locate who [] folder = .ok l) (hholds : site.Holds l) :
    (site.serve t who q).response = some (redirectAnswer (slashedLocation q)).response := by
  obtain ⟨mode, hstat⟩ := Files.Tree.isFolder_iff.mp hfolder
  have hresult : (site.resolve t who q).result =
      .ok (redirectAnswer (slashedLocation q)).response := by
    rw [resolve_of_folder htarget hstat (contained_iff.mpr ⟨l, hl, hholds⟩), serveFolder,
      if_pos (by simp [hslash])]
    rfl
  simp only [serve, hresult]

/-! ## 5. The whole -/

/-- **Containment.**  What an answer with the status of a success, or of a file that has not
changed, shows is a file or folder under the root.  What is asked for and lies outside is forbidden,
and so is the first index file that is there if it lies outside, for a path with a slash at its end;
without one the folder is redirected before its index is looked for.  Under the root of a site that
was opened are the locations that begin with the names of the root's location. -/
theorem serves_only_within_root (site : OpenSite) (t : Files.Tree) (who : Files.Caller)
    (q : Site.Inquiry) :
    (∀ r, (site.serve t who q).response = some r → r.status = .ok ∨ r.status = .notModified →
      ∃ p l, t.locate who [] p = .ok l ∧ site.Holds l ∧
        ((site.Selects t who q p ∧ ShowsFile t q l r) ∨
          (Site.translate? site.root q.path = some p ∧
            (ShowsFolder t who q p l r ∨ ShowsNothing t q l r)))) ∧
    (∀ p l, Site.translate? site.root q.path = some p → t.locate who [] p = .ok l →
      (¬ site.Holds l → (site.serve t who q).response = some (forbiddenPage q)) ∧
      (t.isFolder who [] p = true → endsInSlash q.path = true →
        ∀ index l', site.indexPath? t who p = some index → t.locate who [] index = .ok l' →
          ¬ site.Holds l' → (site.serve t who q).response = some (forbiddenPage q)) ∧
      (t.isFolder who [] p = true → endsInSlash q.path = false → site.Holds l →
        (site.serve t who q).response = some (redirectAnswer (slashedLocation q)).response)) ∧
    (forbiddenPage q).status = .forbidden ∧
    ∀ s t' who' cwd, Files.Location.IsProper cwd → ofSettings s t' who' cwd = .ok site →
      ∃ root, t'.locate who' cwd (Utf8.encode s.serve.root) = .ok root ∧
        ∀ l, site.Holds l ↔ root <+: l :=
  ⟨fun _ h hstatus => shows_of_gives (gives_of_serve h hstatus) hstatus,
    fun _ _ htarget hl => ⟨serve_of_outside htarget hl,
      fun hfolder hslash _ _ hindex hl' hout =>
        serve_of_index_outside htarget hfolder hslash hindex hl' hout,
      fun hfolder hslash hholds => serve_of_unslashed htarget hfolder hslash hl hholds⟩,
    status_forbiddenPage q, fun _ _ _ _ hcwd hopen => holds_iff hcwd hopen⟩

/-- A folder in the root whose index file is a link to a file outside. -/
def treeWithOutsideIndex : Files.Tree :=
  ⟨[([ascii "www"], .folder 0o755), ([ascii "www", ascii "d"], .folder 0o755),
    ([ascii "www", ascii "d", ascii "index.html"], .link (ascii "/secret")),
    ([ascii "secret"], .file (ascii "s") ⟨0, 0⟩ 0o644)]⟩

/-- The site of the folder `www`. -/
def siteOfWww : OpenSite := ⟨.default, ascii "/www", none⟩

/-- The inquiry about the folder `d` without a slash behind it. -/
def inquiryAboutD : Site.Inquiry := ⟨"/d".toList, none, false, none, false⟩

/-- **An index that lies outside is not always forbidden**: without a slash at the end of its path
the folder is redirected. -/
theorem outside_index_of_unslashed_folder :
    Site.translate? siteOfWww.root inquiryAboutD.path = some (ascii "/www/d") ∧
      siteOfWww.indexPath? treeWithOutsideIndex .other (ascii "/www/d") =
        some (ascii "/www/d/index.html") ∧
      treeWithOutsideIndex.canonical .other [] (ascii "/www/d/index.html") =
        .ok (ascii "/secret") ∧
      ¬ siteOfWww.Holds [ascii "secret"] ∧
      (siteOfWww.serve treeWithOutsideIndex .other inquiryAboutD).response =
        some (redirectAnswer "/d/".toList).response ∧
      (redirectAnswer "/d/".toList).response.status = .movedPermanently := by
  decide +kernel

end OpenSite

end IsolatedSite
