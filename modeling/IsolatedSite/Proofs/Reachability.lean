/-
# Every file below the root can be had

A file that stands below the root, down folders that are no links, is sent to whoever asks for the
names on the way to it, each of them escaped (`serves_every_file_below_root`).  What the names are
made of makes no difference: the escaped names are a request target (`parse?_urlOf`), they are
decoded to the names (`Site.translate?_urlOf`), and the path that the names make leads to the file
and nowhere else (`Files.Tree.locate_pathOf`), so that it lies under the root.
-/
import IsolatedSite.Proofs.FileAnswers
import IsolatedSite.Proofs.RealPaths
import IsolatedSite.Proofs.Targets

namespace IsolatedSite

open IsolatedSite.Http IsolatedSite.Http.Fields

namespace Site

/-! ## 1. Asking for names -/

/-- The octets of an escaped chain of names. -/
theorem encode_urlOf (names : List Text) :
    Utf8.encode (urlOf names) =
      names.flatMap fun name => 47 :: (Utf8.encode name).flatMap Percent.encodeByte := by
  induction names with
  | nil => rfl
  | cons name names ih =>
    have hslash : String.utf8EncodeChar '/' = [47] := by decide
    have hcons : urlOf (name :: names) = '/' :: (Percent.encode name ++ urlOf names) := rfl
    rw [hcons, Utf8.encode_cons, Utf8.encode_append, hslash, Percent.encode_encode, ih]
    rfl

/-- Everything in it may stand in a path. -/
theorem isPathByte_of_mem_urlOf {names : List Text} {x : UInt8}
    (h : x ∈ Utf8.encode (urlOf names)) : Target.isPathByte x = true := by
  rw [encode_urlOf] at h
  obtain ⟨name, -, hname⟩ := List.mem_flatMap.mp h
  rcases List.mem_cons.mp hname with rfl | hx
  · decide
  · obtain ⟨b, -, hb⟩ := List.mem_flatMap.mp hx
    have hall : (Percent.encodeByte b).all Target.isPathByte = true :=
      Percent.forall_octet (P := fun b => (Percent.encodeByte b).all Target.isPathByte = true)
        (by decide +kernel) b
    exact List.all_eq_true.mp hall x hb

theorem length_flatMap_encodeByte_le (b : Bytes) :
    (b.flatMap Percent.encodeByte).length ≤ 3 * b.length := by
  induction b with
  | nil => simp
  | cons x b ih =>
    have hx := Percent.length_encodeByte_le x
    rw [List.flatMap_cons, List.length_append, List.length_cons]
    omega

/-- Escaping makes a path three times as long at most. -/
theorem length_urlOf_le (names : List Text) : (Utf8.encode (urlOf names)).length ≤
    3 * ((names.map Utf8.encode).flatMap fun name => Path.slash :: name).length := by
  rw [encode_urlOf]
  induction names with
  | nil => simp
  | cons name names ih =>
    have hname := length_flatMap_encodeByte_le (Utf8.encode name)
    simp only [List.flatMap_cons, List.map_cons, List.length_append, List.length_cons] at ih ⊢
    omega

/-- **An escaped chain of names is a request target**: a path without a query. -/
theorem parse?_urlOf {names : List Text} (hne : names ≠ [])
    (hlength : (Utf8.encode (urlOf names)).length ≤ Target.maxLength) :
    Target.parse? (Utf8.encode (urlOf names)) = some ⟨urlOf names, none⟩ := by
  have hwell : Target.IsWellFormed ⟨urlOf names, none⟩ :=
    ⟨fun _ hx => isPathByte_of_mem_urlOf hx, by simp⟩
  have hslash : (urlOf names).head? = some '/' := by
    obtain ⟨name, names, rfl⟩ := List.exists_cons_of_ne_nil hne
    rfl
  have hwritten : Target.written ⟨urlOf names, none⟩ = Utf8.encode (urlOf names) :=
    Target.written_of_no_query rfl
  rw [← hwritten] at hlength ⊢
  exact hwell.parse?_written hslash hlength

end Site

/-! ## 2. Files below the root -/

namespace OpenSite

variable {site : OpenSite} {t : Files.Tree} {who : Files.Caller} {root : Files.Location}
  {folders : List Text} {name : Text} {content : Bytes} {modified : Calendar.Instant}

/-- Where a file is, by the location of the root, the names of the folders below it and its own. -/
def placeOf (root : Files.Location) (folders : List Text) (name : Text) : Files.Location :=
  root ++ (folders ++ [name]).map Utf8.encode

/-- A file stands below the root, down folders that are no links, under names that are texts; it
can be looked up and read, and its date is one that dates are kept for. -/
structure HoldsFile (site : OpenSite) (t : Files.Tree) (who : Files.Caller) (root : Files.Location)
    (folders : List Text) (name : Text) (content : Bytes) (modified : Calendar.Instant) : Prop where
  root_eq : site.root = Files.Tree.pathOf root
  proper : (placeOf root folders name).IsProper
  reached : t.HasFolders (placeOf root folders name)
  file : ∃ mode, t.find? (placeOf root folders name) = some (.file content modified mode)
  readable : ∃ bytes, t.read who [] (Files.Tree.pathOf (placeOf root folders name)) = .ok bytes
  known : modified.isKnown = true

theorem placeOf_concat (root : Files.Location) (folders : List Text) (name : Text) :
    placeOf root folders name = (root ++ folders.map Utf8.encode) ++ [Utf8.encode name] := by
  simp [placeOf]

theorem HoldsFile.locate_eq
    (h : site.HoldsFile t who root folders name content modified) :
    t.locate who [] (Files.Tree.pathOf (placeOf root folders name)) =
      .ok (placeOf root folders name) := by
  obtain ⟨bytes, hread⟩ := h.readable
  obtain ⟨modified', mode', hstat⟩ := Files.Tree.stat_of_read hread
  obtain ⟨l, hl, -⟩ := Files.Tree.stat_eq_ok_iff.mp hstat
  obtain ⟨mode, hfile⟩ := h.file
  rw [hl, Files.Tree.locate_pathOf h.proper h.reached ⟨_, hfile, nofun⟩ hl]

theorem HoldsFile.read_eq (h : site.HoldsFile t who root folders name content modified) :
    t.read who [] (Files.Tree.pathOf (placeOf root folders name)) = .ok content := by
  obtain ⟨bytes, hread⟩ := h.readable
  obtain ⟨modified', mode', hstat⟩ := Files.Tree.stat_of_read hread
  obtain ⟨mode, hfile⟩ := h.file
  have hfound := Files.Tree.find?_of_stat h.locate_eq hstat
  obtain ⟨rfl, -⟩ := Files.Node.file.inj (Option.some.inj (hfile.symm.trans hfound))
  exact hread

/-- All names on the way are names that a file can have. -/
theorem HoldsFile.isFileName (h : site.HoldsFile t who root folders name content modified) :
    ∀ n ∈ folders ++ [name], Site.IsFileName n := by
  intro n hn
  have hmem : Utf8.encode n ∈ placeOf root folders name :=
    List.mem_append_right _ (List.mem_map_of_mem hn)
  exact ⟨h.proper _ hmem, fun hnul =>
    (Files.Tree.admitted_of_locate h.locate_eq).1 (Files.Tree.mem_pathOf hmem hnul)⟩

/-- The target of its names is short enough to be read: the path of the file is. -/
theorem HoldsFile.length_urlOf_le (h : site.HoldsFile t who root folders name content modified) :
    (Utf8.encode (Site.urlOf (folders ++ [name]))).length ≤ Target.maxLength := by
  have hurl := Site.length_urlOf_le (folders ++ [name])
  have hpath := (Files.Tree.admitted_of_locate h.locate_eq).2
  have hne : placeOf root folders name ≠ [] := by simp [placeOf]
  rw [Files.Tree.pathOf, if_neg hne, placeOf, List.flatMap_append, List.length_append] at hpath
  unfold Files.Tree.maxPath at hpath
  unfold Target.maxLength
  omega

/-- **The names lead to the file.** -/
theorem HoldsFile.translate?_eq (h : site.HoldsFile t who root folders name content modified) :
    Site.translate? site.root (Site.urlOf (folders ++ [name])) =
      some (Files.Tree.pathOf (placeOf root folders name)) := by
  rw [Site.translate?_urlOf h.isFileName, h.root_eq, Files.Tree.joinAll_pathOf h.proper]
  rfl

theorem HoldsFile.contained (h : site.HoldsFile t who root folders name content modified) :
    site.Contained t who (Files.Tree.pathOf (placeOf root folders name)) := by
  have hroot : root.IsProper := fun n hn => h.proper n (List.mem_append_left _ hn)
  refine contained_iff.mpr ⟨_, h.locate_eq, ?_⟩
  rw [Holds, h.root_eq, Files.Tree.components_pathOf hroot, Files.Tree.normal_prefix_iff]
  exact List.prefix_append _ _

/-- The type of a file goes by its name alone. -/
theorem HoldsFile.ofPath_eq (h : site.HoldsFile t who root folders name content modified) :
    ContentType.ofPath (Files.Tree.pathOf (placeOf root folders name)) =
      ContentType.ofPath (Utf8.encode name) := by
  have hproper := h.proper
  rw [placeOf_concat] at hproper ⊢
  rw [ContentType.ofPath, ContentType.ofPath, Path.extension?, Path.extension?,
    Files.Tree.fileName?_pathOf_concat hproper, Files.Tree.fileName?_of_isName
      (hproper _ (by simp))]

/-- **The file is what is selected** by every inquiry for its names. -/
theorem HoldsFile.selectsFile (h : site.HoldsFile t who root folders name content modified)
    {q : Site.Inquiry} (hpath : q.path = Site.urlOf (folders ++ [name])) :
    ∃ mode, site.SelectsFile t who q (Files.Tree.pathOf (placeOf root folders name))
      (.file content modified mode) (Calendar.httpDateText modified) := by
  obtain ⟨mode, hfile⟩ := h.file
  have hstat := Files.Tree.stat_eq_ok_iff.mpr ⟨_, h.locate_eq, hfile⟩
  have hslash : endsInSlash q.path = false := by
    rw [hpath, Site.urlOf_concat, ← List.singleton_append, ← List.append_assoc]
    exact endsInSlash_append_encode _ (h.isFileName name (by simp)).ne_nil
  exact ⟨mode, .itself ⟨hpath ▸ h.translate?_eq, hstat, h.contained⟩ nofun hslash, h.contained,
    hstat, if_pos h.known⟩

/-! ## 3. The answer -/

/-- **The answer to whoever asks for the names** is the file. -/
theorem HoldsFile.response_eq (h : site.HoldsFile t who root folders name content modified)
    {q : Site.Request} (hmethod : q.method = Site.methodGet)
    (hpath : q.target.path = Site.urlOf (folders ++ [name]))
    (hplain : q.fields.has (ascii "if-modified-since") = false) :
    (site.answer t who q).response = some (site.finished
      ⟨.ok, [(contentType, Utf8.encode (ContentType.ofPath (Utf8.encode name))),
        (contentLength, Decimal.bytes content.length),
        (lastModified, Utf8.encode (Calendar.httpDateText modified))], content⟩) := by
  obtain ⟨mode, hselects⟩ := h.selectsFile (q := .ofRequest q) hpath
  have hsince : (Site.Inquiry.ofRequest q).ifModifiedSince = none := by
    rw [Site.Inquiry.ofRequest, firstText?, first?_of_not_has hplain]
    rfl
  have hchanged : Site.isNotModified? (Site.Inquiry.ofRequest q).ifModifiedSince
      (Site.Inquiry.ofRequest q).hasIfNoneMatch (modifiedOf (.file content modified mode)) =
        some false := by
    rw [hsince]
    cases (Site.Inquiry.ofRequest q).hasIfNoneMatch <;> rfl
  rw [response_answer (Or.inl hmethod), serve_of_selectsFile hselects hchanged fun _ => h.read_eq,
    if_neg (by decide), isHead_ofRequest hmethod, fileAnswer_eq content (isPlain_ofPath _)
      (Calendar.isPlain_httpDateText modified), h.ofPath_eq]
  rfl

/-- The root of a site that was opened on a tree is a folder there, and no link leads to it. -/
theorem exists_root_of_ofSettings {s : Settings} {cwd : Files.Location} (hcwd : cwd.IsProper)
    (hfolders : t.HasFolders cwd) (hopen : ofSettings s t who cwd = .ok site) :
    ∃ root mode, t.locate who cwd (Utf8.encode s.serve.root) = .ok root ∧
      site.root = Files.Tree.pathOf root ∧ root.IsProper ∧ t.HasFolders root ∧
      t.find? root = some (.folder mode) := by
  obtain ⟨root, hroot, hpath, hfolder⟩ := root_of_ofSettings hopen
  have hproper := Files.Tree.isProper_of_locate hcwd hroot
  have hreached := Files.Tree.locate_keeps (Files.Tree.kept_hasFolders t)
    (Files.Tree.hasFolders_nil t) hfolders hroot
  have hthere := Files.Tree.isThere_of_locate hfolders hroot
  obtain ⟨mode, hstat⟩ := Files.Tree.isFolder_iff.mp hfolder
  obtain ⟨l, hl, hfind⟩ := Files.Tree.stat_eq_ok_iff.mp hstat
  obtain rfl := Files.Tree.locate_pathOf hproper hreached hthere hl
  exact ⟨l, mode, hroot, hpath, hproper, hreached, hfind⟩

/-- **Every file below the root can be had.**  A file that stands below the root of a site, down
folders that are no links, under names that are texts, is sent whole to whoever asks, without a
condition, for the names on the way to it, each of them escaped: with its length, with the type
that goes by its name and with its date.  The root of a site that was opened on the tree is itself
a folder that no link leads to. -/
theorem serves_every_file_below_root (site : OpenSite) (t : Files.Tree) (who : Files.Caller) :
    (∀ root folders name content modified,
      site.HoldsFile t who root folders name content modified →
      ∀ url, url = '/' :: joinWith ['/'] ((folders ++ [name]).map Percent.encode) →
        Target.parse? (Utf8.encode url) = some ⟨url, none⟩ ∧
        ∀ q : Site.Request, q.method = Site.methodGet → q.target.path = url →
          q.fields.has (ascii "if-modified-since") = false →
          ∃ r date, (site.answer t who q).response = some r ∧ r.status = .ok ∧ r.body = content ∧
            r.fields.valuesOf contentLength = [Decimal.bytes content.length] ∧
            r.fields.valuesOf contentType =
              [Utf8.encode (ContentType.ofPath (Utf8.encode name))] ∧
            Calendar.httpDate? modified = some date ∧
            r.fields.valuesOf lastModified = [Utf8.encode date]) ∧
    ∀ s cwd, Files.Location.IsProper cwd → t.HasFolders cwd → ofSettings s t who cwd = .ok site →
      ∃ root mode, t.locate who cwd (Utf8.encode s.serve.root) = .ok root ∧
        site.root = Files.Tree.pathOf root ∧ root.IsProper ∧ t.HasFolders root ∧
        t.find? root = some (.folder mode) := by
  refine ⟨?_, fun s cwd hcwd hfolders hopen => exists_root_of_ofSettings hcwd hfolders hopen⟩
  rintro root folders name content modified h _ rfl
  rw [Site.cons_joinWith_encode (by simp)]
  refine ⟨Site.parse?_urlOf (by simp) h.length_urlOf_le, fun q hmethod hpath hplain => ?_⟩
  refine ⟨_, _, h.response_eq hmethod hpath hplain, status_finished _, body_finished _, ?_, ?_,
    if_pos h.known, ?_⟩ <;>
    rw [valuesOf_finished (by simp [ownNames]) (by decide +kernel)] <;> rfl

/-- A file under a name that looks like an escape and ends a path, in a folder with a space in its
name. -/
def treeOfOddNames : Files.Tree :=
  ⟨[([ascii "www"], .folder 0o755), ([ascii "www", ascii "a b"], .folder 0o755),
    ([ascii "www", ascii "a b", ascii "%41?#.txt"], .file (ascii "hi") ⟨0, 0⟩ 0o644)]⟩

theorem holdsFile_treeOfOddNames :
    siteOfWww.HoldsFile treeOfOddNames .other [ascii "www"] ["a b".toList] "%41?#.txt".toList
      (ascii "hi") ⟨0, 0⟩ := by
  have hwww : Files.IsName (ascii "www") := ⟨by decide, by decide, by decide, by decide⟩
  have hfolder : Files.IsName (Utf8.encode "a b".toList) :=
    ⟨by decide, by decide, by decide, by decide⟩
  have hfile : Files.IsName (Utf8.encode "%41?#.txt".toList) :=
    ⟨by decide, by decide, by decide, by decide⟩
  have hkept := Files.Tree.kept_hasFolders treeOfOddNames
  have hroot : Files.Location.IsProper [] := by simp [Files.Location.IsProper]
  exact {
    root_eq := by decide
    proper := ((hroot.concat hwww).concat hfolder).concat hfile
    reached := hkept.into _ 0o755 _ (hkept.into _ 0o755 _ (hkept.into _ 0o755 _
      (Files.Tree.hasFolders_nil _) (by decide) hwww) (by decide) hfolder) (by decide) hfile
    file := ⟨0o644, by decide +kernel⟩
    readable := ⟨ascii "hi", by decide +kernel⟩
    known := by decide }

/-- **Odd names** are no obstacle. -/
theorem serves_file_of_odd_name :
    Target.parse? (ascii "/a%20b/%2541%3F%23.txt") =
        some ⟨"/a%20b/%2541%3F%23.txt".toList, none⟩ ∧
      ∃ r, (siteOfWww.answer treeOfOddNames .other ⟨Site.methodGet,
          ⟨"/a%20b/%2541%3F%23.txt".toList, none⟩, .http11, []⟩).response = some r ∧
        r.status = .ok ∧ r.body = ascii "hi" ∧
        r.fields.valuesOf contentType = [ascii "text/plain; charset=utf-8"] := by
  obtain ⟨hparse, hanswer⟩ := (serves_every_file_below_root siteOfWww treeOfOddNames .other).1
    _ _ _ _ _ holdsFile_treeOfOddNames "/a%20b/%2541%3F%23.txt".toList (by decide +kernel)
  obtain ⟨r, date, hr, hstatus, hbody, -, htype, -⟩ := hanswer ⟨Site.methodGet,
    ⟨"/a%20b/%2541%3F%23.txt".toList, none⟩, .http11, []⟩ rfl rfl rfl
  exact ⟨hparse, r, hr, hstatus, hbody, htype.trans (by decide +kernel)⟩

end OpenSite

end IsolatedSite
