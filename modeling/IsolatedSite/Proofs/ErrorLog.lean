/-
# The lines of the error log

A notice is written behind a tag, and a line feed in it begins the next line of the log
(`Notice.logLines_eq_map_iff`), so whoever could put a line break into one could forge the next.
Most of what notices show cannot hold a line break where the names in the tree do not: fixed texts,
the path of a request as it came, and paths that lead to something.  What is left is the path that
a request was translated to, when the file system fails at it in a way that is noted.  So all
notices about a request are lines of their own exactly if there is no such failure at a path with a
line break (`OpenSite.SplitsLine`, `notices_one_line_iff`).
-/
import IsolatedSite.Proofs.Containment
import IsolatedSite.Proofs.IsolationOnWire
import IsolatedSite.Proofs.LineBreaks
import IsolatedSite.Service

namespace IsolatedSite

open IsolatedSite.Http

/-! ## 1. Lines -/

namespace Notice

/-- A notice that takes one line of the log. -/
def IsOneLine (n : Notice) : Prop := Text.IsOneLine n.line

instance (n : Notice) : Decidable n.IsOneLine := inferInstanceAs (Decidable (Text.IsOneLine _))

/-- What lines of the log begin with. -/
def tags : List Text := ["[ERROR] ".toList, "[WARN] ".toList, "[INFO] ".toList]

/-- A text begins with a tag. -/
def IsTagged (t : Text) : Prop := ∃ tag ∈ tags, tag <+: t

instance (t : Text) : Decidable (IsTagged t) :=
  inferInstanceAs (Decidable (∃ tag ∈ tags, tag <+: t))

theorem IsTagged.append {s : Text} (h : IsTagged s) (t : Text) : IsTagged (s ++ t) := by
  obtain ⟨tag, htag, hpre⟩ := h
  exact ⟨tag, htag, hpre.trans (List.prefix_append s t)⟩

/-- **Every notice is tagged.** -/
theorem isTagged_line (n : Notice) : IsTagged n.line := by
  have herror : IsTagged "[ERROR] ".toList := by decide
  have hbuild : IsTagged "[ERROR] Failed to build ".toList := by decide
  have hcode : IsTagged "[ERROR] code ".toList := by decide
  have hserve : IsTagged "[ERROR] Failed to serve connection: ".toList := by decide
  have haccess : IsTagged "[WARN] Cannot access '".toList := by decide
  have hlist : IsTagged "[WARN] Cannot list directory '".toList := by decide
  have houtside : IsTagged "[WARN] Path traversal attempt blocked: ".toList := by decide
  have hinfo : IsTagged "[INFO] ".toList := by decide
  cases n with
  | unbuildable shape => exact (hbuild.append _).append _
  | inaccessible path cause => exact ((haccess.append _).append _).append _
  | unlistable path cause => exact ((hlist.append _).append _).append _
  | outsideRoot requested real => exact ((houtside.append _).append _).append _
  | rejected why => exact ((hcode.append _).append _).append _
  | connectionFailed cause => exact hserve.append _
  | headRefused cause => exact hserve.append _
  | shutdown signal => exact (hinfo.append _).append _
  | fatal message => exact herror.append _

theorem isOneLine_message (cause : Files.OsError) : Text.IsOneLine cause.message.toList := by
  cases cause <;> decide

theorem isOneLine_unbuildable {shape : Text} (h : Text.IsOneLine shape) :
    (unbuildable shape).IsOneLine :=
  (Text.IsOneLine.append (by decide) h).append (by decide)

/-- **A path is shown on one line** if it is one. -/
theorem isOneLine_inaccessible_iff {path : Path} {cause : Files.OsError} :
    (inaccessible path cause).IsOneLine ↔ Path.IsOneLine path := by
  rw [← Path.isOneLine_decodeLossy]
  constructor
  · intro h
    have hfront := (Text.isOneLine_append.mp (Text.isOneLine_append.mp h).1).1
    exact (Text.isOneLine_append.mp hfront).2
  · intro h
    exact ((Text.IsOneLine.append (by decide) h).append (by decide)).append
      (isOneLine_message cause)

theorem isOneLine_unlistable {path : Path} (h : Path.IsOneLine path) (cause : Files.OsError) :
    (unlistable path cause).IsOneLine :=
  ((Text.IsOneLine.append (by decide) (Path.isOneLine_decodeLossy.mpr h)).append
    (by decide)).append (isOneLine_message cause)

theorem isOneLine_outsideRoot {requested : Text} {real : Path} (h : Text.IsOneLine requested)
    (hreal : Path.IsOneLine real) : (outsideRoot requested real).IsOneLine :=
  ((Text.IsOneLine.append (by decide) h).append (by decide)).append
    (Path.isOneLine_decodeLossy.mpr hreal)

theorem isOneLine_rejected (why : Rejection) : (rejected why).IsOneLine := by
  have hmessage : Text.IsOneLine why.message := by cases why <;> decide
  exact ((Text.IsOneLine.append (by decide) (Decimal.isPlain_ofNat _).isOneLine).append
    (by decide)).append hmessage

theorem isOneLine_headRefused (cause : Refusal) : (headRefused cause).IsOneLine := by
  have hmessage : Text.IsOneLine cause.message := by cases cause <;> decide
  exact Text.IsOneLine.append (by decide) hmessage

theorem isOneLine_connectionFailed {cause : Trouble} (h : Text.IsOneLine cause.message) :
    (connectionFailed cause).IsOneLine :=
  Text.IsOneLine.append (by decide) h

theorem logLines_cons (n : Notice) (notices : List Notice) :
    logLines (n :: notices) = splitAtEach '\n' n.line ++ logLines notices := by
  rw [logLines, List.map_cons, Text.lines, List.flatMap_cons]
  rfl

/-- **The lines of the log** are those of its notices, one below the other. -/
theorem splitAtEach_logOf (notices : List Notice) :
    splitAtEach '\n' (logOf notices) = logLines notices ++ [[]] := by
  induction notices with
  | nil => rfl
  | cons n notices ih =>
    have hlog : logOf (n :: notices) = n.line ++ '\n' :: logOf notices := by
      rw [logOf, List.flatMap_cons, List.append_assoc]
      rfl
    rw [hlog, splitAtEach_append_sep, ih, logLines_cons, List.append_assoc]

/-- **What the service writes** for notices, where its log goes to the error output, is their
lines.  The induction is on the notices, with what was written before them. -/
theorem errorOutput_logAll (r : Transcript) (w : Workplace) (notices : List Notice) :
    (r.logAll w (notices.map line) .errorOutput).errorOutput =
      r.errorOutput ++ logLines notices := by
  induction notices generalizing r with
  | nil => simp [Transcript.logAll, logLines, Text.lines]
  | cons n notices ih =>
    have hstep : r.logAll w ((n :: notices).map line) .errorOutput =
        (r.log w n.line .errorOutput).logAll w (notices.map line) .errorOutput := rfl
    have hlog : (r.log w n.line .errorOutput).errorOutput =
        r.errorOutput ++ splitAtEach '\n' n.line := by
      simp [Transcript.log, Text.lines]
    rw [hstep, ih, hlog, logLines_cons, List.append_assoc]

/-- **Each notice has one line of the log** exactly if none shows a line feed. -/
theorem logLines_eq_map_iff {notices : List Notice} :
    logLines notices = notices.map line ↔ ∀ n ∈ notices, '\n' ∉ n.line := by
  induction notices with
  | nil => simp [logLines, Text.lines]
  | cons n notices ih =>
    rw [logLines_cons, List.map_cons, List.forall_mem_cons]
    constructor
    · intro h
      obtain ⟨piece, pieces, hsplit⟩ :=
        List.exists_cons_of_ne_nil (splitAtEach_ne_nil '\n' n.line)
      rw [hsplit, List.cons_append, List.cons.injEq] at h
      have hn : '\n' ∉ n.line := by
        rw [← h.1]
        exact Files.not_mem_of_mem_splitAtEach (hsplit ▸ List.mem_cons_self)
      have hpieces : pieces = [] := by
        rw [Files.Tree.splitAtEach_of_not_mem hn, List.cons.injEq] at hsplit
        exact hsplit.2.symm
      rw [hpieces] at h
      exact ⟨hn, ih.mp h.2⟩
    · rintro ⟨hn, hrest⟩
      rw [Files.Tree.splitAtEach_of_not_mem hn, ih.mpr hrest]
      rfl

end Notice

/-! ## 2. Notices of handling -/

namespace Site.Handling

variable {α β : Type}

/-- Every notice of a handling takes one line. -/
def IsOneLine (h : Handling α) : Prop := ∀ n ∈ h.notices, n.IsOneLine

theorem IsOneLine.bind {h : Handling α} {next : α → Handling β} (hh : h.IsOneLine)
    (hnext : ∀ a, h.result = .ok a → (next a).IsOneLine) : (h >>= next).IsOneLine := by
  obtain ⟨result, notices⟩ := h
  cases result with
  | error e => exact hh
  | ok a =>
    intro n hn
    rcases List.mem_append.mp hn with hn | hn
    · exact hh n hn
    · exact hnext a rfl n hn

theorem mem_notices_bind {h : Handling α} {next : α → Handling β} {n : Notice}
    (hn : n ∈ h.notices) : n ∈ (h >>= next).notices := by
  obtain ⟨result, notices⟩ := h
  cases result with
  | error e => exact hn
  | ok a => exact List.mem_append_left _ hn

theorem mem_notices_bind_of_ok {h : Handling α} {next : α → Handling β} {a : α} {n : Notice}
    (ha : h.result = .ok a) (hn : n ∈ (next a).notices) : n ∈ (h >>= next).notices := by
  obtain ⟨result, notices⟩ := h
  cases ha
  exact List.mem_append_right _ hn

theorem mem_notices_ofFiles (path : Path) {cause : Files.OsError} (hmissing : cause ≠ .notFound)
    (hdenied : cause ≠ .permissionDenied) :
    .inaccessible path cause ∈ (ofFiles path (.error cause) : Handling α).notices := by
  cases cause <;> first | contradiction | exact List.mem_singleton.mpr rfl

theorem isOneLine_done (a : α) : (done a).IsOneLine := by simp [IsOneLine, done]

theorem isOneLine_fail (e : Failure) : (fail e : Handling α).IsOneLine := by
  simp [IsOneLine, fail]

theorem isOneLine_failWith {n : Notice} (h : n.IsOneLine) (e : Failure) :
    (failWith n e : Handling α).IsOneLine := by
  simpa [IsOneLine, failWith] using h

theorem isOneLine_orFail (e : Failure) (o : Option α) : (orFail e o).IsOneLine := by
  cases o with
  | none => exact isOneLine_fail e
  | some a => exact isOneLine_done a

theorem isOneLine_ofFiles {path : Path} (h : Path.IsOneLine path)
    (found : Except Files.OsError α) : (ofFiles path found).IsOneLine := by
  unfold ofFiles
  split
  · exact isOneLine_done _
  · exact isOneLine_fail _
  · exact isOneLine_fail _
  · exact isOneLine_failWith (Notice.isOneLine_inaccessible_iff.mpr h) _

theorem IsOneLine.ite (c : Prop) [Decidable c] {h h' : Handling α} (hthen : h.IsOneLine)
    (helse : h'.IsOneLine) : (if c then h else h').IsOneLine := by
  split
  · exact hthen
  · exact helse

/-- Building an answer notes at most the shape of the answer, which is named by a fixed text or by a
number. -/
theorem isOneLine_ofBuilt {shape : Text} (h : Text.IsOneLine shape) {status fallback : Status}
    {fields : List (Bytes × Text)} {body : Bytes} :
    (ofBuilt (build shape status fallback fields body)).IsOneLine := by
  intro n hn
  obtain ⟨failed, hfailed, rfl⟩ := List.mem_map.mp hn
  unfold build at hfailed
  dsimp only at hfailed
  split at hfailed
  · cases hfailed
  · obtain rfl := List.mem_singleton.mp hfailed
    exact Notice.isOneLine_unbuildable h

end Site.Handling

namespace OpenSite

open Site.Handling

variable {site : OpenSite} {t : Files.Tree} {who : Files.Caller} {q : Site.Inquiry}

theorem isOneLine_ensureContained (ht : t.HasPlainNames) {target : Path} {requested : Text}
    (htarget : Path.IsOneLine target) (hrequested : Text.IsOneLine requested) :
    (site.ensureContained t who target requested).IsOneLine := by
  refine (isOneLine_ofFiles htarget _).bind fun real hreal => ?_
  have hone := Files.Tree.isOneLine_of_canonical ht (result_ofFiles_eq_ok.mp hreal)
  exact .ite _ (isOneLine_done _)
    (isOneLine_failWith (Notice.isOneLine_outsideRoot hrequested hone) _)

theorem isOneLine_serveFile (ht : t.HasPlainNames) (hq : Text.IsOneLine q.path) {path : Path}
    (hpath : Path.IsOneLine path) : (site.serveFile t who q path).IsOneLine := by
  refine (isOneLine_ensureContained ht hpath hq).bind fun _ _ => ?_
  refine (isOneLine_ofFiles hpath _).bind fun node _ => ?_
  refine (isOneLine_orFail _ _).bind fun unchanged _ => .ite _ ?_ ?_
  · refine (isOneLine_orFail _ _).bind fun date _ => ?_
    exact isOneLine_ofBuilt (by decide)
  · refine (isOneLine_ofFiles hpath _).bind fun content _ => ?_
    refine (isOneLine_orFail _ _).bind fun date _ => ?_
    exact isOneLine_ofBuilt (by decide)

theorem isOneLine_serveListing {folder : Path} (hfolder : Path.IsOneLine folder) :
    (serveListing t who q folder).IsOneLine := by
  unfold serveListing
  split
  · exact isOneLine_ofBuilt (by decide)
  · exact isOneLine_failWith (Notice.isOneLine_unlistable hfolder _) _

/-- An index file was found, so its path holds no line break, whatever the settings name. -/
theorem isOneLine_serveFolder (ht : t.HasPlainNames) (hq : Text.IsOneLine q.path) {folder : Path}
    (hfolder : Path.IsOneLine folder) : (site.serveFolder t who q folder).IsOneLine := by
  refine .ite _ ?_ ?_
  · exact isOneLine_ofBuilt (by decide)
  · cases hindex : site.indexPath? t who folder with
    | none => exact .ite _ (isOneLine_serveListing hfolder) (isOneLine_fail _)
    | some index =>
      obtain ⟨content, modified, mode, hstat⟩ :=
        Files.Tree.isFile_iff.mp (List.find?_some hindex)
      exact isOneLine_serveFile ht hq (Files.Tree.isOneLine_of_stat ht hstat)

/-! ## 3. The one path that may hold a line break -/

/-- The file system fails at the path that an inquiry is translated to, in a way that is noted, and
the decoded path holds a line break. -/
structure SplitsLine (site : OpenSite) (t : Files.Tree) (who : Files.Caller)
    (q : Site.Inquiry) : Prop where
  noted : ∃ target cause, Site.translate? site.root q.path = some target ∧
    t.stat who [] target = .error cause ∧ cause ≠ .notFound ∧ cause ≠ .permissionDenied
  breaks : ¬ Text.IsOneLine (Percent.decodeText q.path)

/-- **What is noted on the way to an answer** is one line each time unless the translated path is
shown with a line break in it. -/
theorem isOneLine_resolve_iff (ht : t.HasPlainNames) (hroot : Path.IsOneLine site.root)
    (hq : Text.IsOneLine q.path) :
    (site.resolve t who q).IsOneLine ↔ ¬ site.SplitsLine t who q := by
  constructor
  · rintro hone ⟨⟨target, cause, htarget, hstat, hmissing, hdenied⟩, hbreaks⟩
    have hnotice : .inaccessible target cause ∈ (site.resolve t who q).notices := by
      refine mem_notices_bind_of_ok (result_orFail_eq_ok.mpr htarget) ?_
      refine mem_notices_bind ?_
      rw [hstat]
      exact mem_notices_ofFiles target hmissing hdenied
    have hpath := Notice.isOneLine_inaccessible_iff.mp (hone _ hnotice)
    exact hbreaks ((Site.isOneLine_of_translate? hroot htarget).mp hpath)
  · intro hnot
    refine (isOneLine_orFail _ _).bind fun target htarget => IsOneLine.bind ?_ fun node hnode => ?_
    · by_cases hone : Path.IsOneLine target
      · exact isOneLine_ofFiles hone _
      · have hbreaks := mt (Site.isOneLine_of_translate? hroot
          (result_orFail_eq_ok.mp htarget)).mpr hone
        cases hstat : t.stat who [] target with
        | ok node => exact absurd (Files.Tree.isOneLine_of_stat ht hstat) hone
        | error cause =>
          by_cases hmissing : cause = .notFound
          · rw [hmissing]
            exact isOneLine_fail _
          · by_cases hdenied : cause = .permissionDenied
            · rw [hdenied]
              exact isOneLine_fail _
            · exact absurd ⟨⟨target, cause, result_orFail_eq_ok.mp htarget, hstat, hmissing,
                hdenied⟩, hbreaks⟩ hnot
    · have hone := Files.Tree.isOneLine_of_stat ht (result_ofFiles_eq_ok.mp hnode)
      refine (isOneLine_ensureContained ht hone hq).bind fun _ _ => ?_
      have hfile : IsOneLine (if endsInSlash q.path then fail .notFound
          else site.serveFile t who q target) :=
        .ite _ (isOneLine_fail _) (isOneLine_serveFile ht hq hone)
      cases node with
      | folder mode => exact isOneLine_serveFolder ht hq hone
      | file content modified mode => exact hfile
      | link target' => exact hfile

/-- **Error pages** add no line but their own. -/
theorem isOneLine_serve_iff (ht : t.HasPlainNames) (hroot : Path.IsOneLine site.root)
    (hq : Text.IsOneLine q.path) :
    (∀ n ∈ (site.serve t who q).notices, n.IsOneLine) ↔ ¬ site.SplitsLine t who q := by
  rw [← isOneLine_resolve_iff ht hroot hq]
  unfold serve IsOneLine
  dsimp only
  split
  · exact Iff.rfl
  · split
    · exact Iff.rfl
    · rw [List.forall_mem_append]
      exact and_iff_left (isOneLine_ofBuilt (Decimal.isPlain_ofNat _).isOneLine)

/-- A request for a file or folder splits a line. -/
def SplitsLineFor (site : OpenSite) (t : Files.Tree) (who : Files.Caller)
    (q : Site.Request) : Prop :=
  (q.method = Site.methodGet ∨ q.method = Site.methodHead) ∧
    site.SplitsLine t who (.ofRequest q)

theorem isOneLine_answer_iff {q : Site.Request} (ht : t.HasPlainNames)
    (hroot : Path.IsOneLine site.root) (hq : Text.IsOneLine q.target.path) :
    (∀ n ∈ (site.answer t who q).notices, n.IsOneLine) ↔ ¬ site.SplitsLineFor t who q := by
  by_cases hmethod : q.method = Site.methodGet ∨ q.method = Site.methodHead
  · have hserve : (∀ n ∈ (site.serve t who (.ofRequest q)).notices, n.IsOneLine) ↔
        ¬ site.SplitsLine t who (.ofRequest q) := isOneLine_serve_iff ht hroot hq
    simp only [answer, handle, SplitsLineFor, hmethod, true_and]
    exact hserve
  · have hother : ∀ n ∈ (site.answer t who q).notices, n.IsOneLine := by
      simp only [answer, handle, if_neg hmethod]
      exact isOneLine_ofBuilt (Decimal.isPlain_ofNat _).isOneLine
    exact iff_of_true hother fun hsplits => hmethod hsplits.1

/-- The root of a site that was opened was found in its tree. -/
theorem isOneLine_root_of_ofSettings (ht : t.HasPlainNames) {s : Settings} {cwd : Files.Location}
    (hopen : ofSettings s t who cwd = .ok site) : Path.IsOneLine site.root := by
  obtain ⟨root, -, hpath, hfolder⟩ := root_of_ofSettings hopen
  obtain ⟨mode, hstat⟩ := Files.Tree.isFolder_iff.mp hfolder
  rw [hpath]
  exact Files.Tree.isOneLine_of_stat ht hstat

end OpenSite

/-! ## 4. On the wire -/

namespace Connection

/-- The request that a connection makes, if its head is passed on and not refused. -/
def requested? (incoming : Incoming Trouble) : Option Site.Request :=
  (passedOn incoming).bind fun h => (requestOf h).toOption

theorem isOneLine_of_requestOf {h : Head} {q : Site.Request} (hq : requestOf h = .ok q) :
    Text.IsOneLine q.target.path := by
  unfold requestOf at hq
  split at hq
  · cases hq
  · cases hq
    dsimp only
    cases htarget : Target.parse? h.target with
    | none => simp [Text.IsOneLine]
    | some target => exact Target.isOneLine_of_parse? htarget

theorem notices_serveRequest (site : OpenSite) (w : Surroundings) (q : Site.Request) :
    (serveRequest site w q).notices = (site.answer w.tree w.caller q).notices := by
  simp only [serveRequest]
  split <;> rfl

/-- **What a connection notes** is one line each time, unless the request that it makes splits
one. -/
theorem isOneLine_serve_iff {site : OpenSite} {w : Surroundings} (ht : w.tree.HasPlainNames)
    (hroot : Path.IsOneLine site.root) {incoming : Incoming Trouble}
    (hcause : ∀ cause, (readHead incoming).1 = .failed cause → Text.IsOneLine cause.message) :
    (∀ n ∈ (serve site w incoming).notices, n.IsOneLine) ↔
      ∀ q ∈ requested? incoming, ¬ site.SplitsLineFor w.tree w.caller q := by
  cases hread : (readHead incoming).1 with
  | closed => simp [serve, requested?, passedOn, hread]
  | failed cause =>
    have hone := Notice.isOneLine_connectionFailed (hcause cause hread)
    simp [serve, requested?, passedOn, hread, hone]
  | rejected why =>
    have hone := Notice.isOneLine_rejected why
    simp [serve, serveRejection, requested?, passedOn, hread, hone]
  | complete read =>
    obtain ⟨h, hpass, hserve⟩ := serve_of_complete site w hread
    rw [hserve, requested?, hpass, Option.bind_some]
    cases hrequest : requestOf h with
    | error why =>
      have hone := Notice.isOneLine_headRefused why
      simp [serveHead, hrequest, hone, Except.toOption]
    | ok q =>
      simp only [serveHead, hrequest, notices_serveRequest, Except.toOption, Option.mem_some_iff,
        forall_eq']
      exact OpenSite.isOneLine_answer_iff ht hroot (isOneLine_of_requestOf hrequest)

end Connection

/-! ## 5. The whole -/

namespace OpenSite

/-- **Lines of the error log.**  A site was opened where no name in the tree holds a line break, and
none does when it is asked.  Then each notice about a request is one line exactly if the request
splits none: in an answer to a request whose target was read, and on a connection, where a failure
of the connection itself says what it says in one line.  The lines of a log, and of what the service
writes, are those of its notices, one for each of them exactly if none shows a line feed, and every
notice begins with a tag. -/
theorem notices_one_line_iff {s : Settings} {t₀ t : Files.Tree} {who₀ who : Files.Caller}
    {cwd : Files.Location} {site : OpenSite} (hopen : ofSettings s t₀ who₀ cwd = .ok site)
    (ht₀ : t₀.HasPlainNames) (ht : t.HasPlainNames) :
    (∀ (q : Site.Request) b, Target.parse? b = some q.target →
      ((∀ n ∈ (site.answer t who q).notices, n.IsOneLine) ↔ ¬ site.SplitsLineFor t who q)) ∧
    (∀ (w : Connection.Surroundings) incoming, w.tree = t → w.caller = who →
      (∀ cause, (Connection.readHead incoming).1 = .failed cause →
        Text.IsOneLine cause.message) →
      ((∀ n ∈ (Connection.serve site w incoming).notices, n.IsOneLine) ↔
        ∀ q ∈ Connection.requested? incoming, ¬ site.SplitsLineFor t who q)) ∧
    (∀ notices : List Notice,
      splitAtEach '\n' (Notice.logOf notices) = Notice.logLines notices ++ [[]] ∧
      (∀ (r : Transcript) w, (r.logAll w (notices.map Notice.line) .errorOutput).errorOutput =
        r.errorOutput ++ Notice.logLines notices) ∧
      (Notice.logLines notices = notices.map Notice.line ↔
        ∀ n ∈ notices, '\n' ∉ n.line)) ∧
    ∀ n : Notice, Notice.IsTagged n.line := by
  have hroot := isOneLine_root_of_ofSettings ht₀ hopen
  refine ⟨?_, ?_, ?_, Notice.isTagged_line⟩
  · intro q b hb
    exact isOneLine_answer_iff ht hroot (Target.isOneLine_of_parse? hb)
  · rintro w incoming rfl rfl hcause
    exact Connection.isOneLine_serve_iff ht hroot hcause
  · intro notices
    exact ⟨Notice.splitAtEach_logOf notices,
      fun r w => Notice.errorOutput_logAll r w notices, Notice.logLines_eq_map_iff⟩

/-- A folder with a file in it. -/
def treeWithFile : Files.Tree :=
  ⟨[([ascii "www"], .folder 0o755), ([ascii "www", ascii "a"], .file [] ⟨0, 0⟩ 0o644)]⟩

/-- The site of that folder, with all settings as they are when nothing is set. -/
def siteOfFolder : OpenSite := ⟨.default, ascii "/www", some .common⟩

theorem siteOfFolder_opened :
    ofSettings .default treeWithFile .other [ascii "www"] = .ok siteOfFolder := by
  decide +kernel

/-- A request for something below the file. -/
def requestBelowFile (name : String) : Site.Request :=
  ⟨Site.methodGet, ⟨"/a/".toList ++ name.toList, none⟩, .http11, []⟩

/-- A file is no folder, which is noted, on one line where the path has no line break. -/
theorem below_file_one_line :
    ofSettings .default treeWithFile .other [ascii "www"] = .ok siteOfFolder ∧
      treeWithFile.HasPlainNames ∧
      (siteOfFolder.answer treeWithFile .other (requestBelowFile "b")).notices =
        [.inaccessible (ascii "/www/a/b") .notADirectory] ∧
      ∀ n ∈ (siteOfFolder.answer treeWithFile .other (requestBelowFile "b")).notices,
        n.IsOneLine := by
  have hnames : treeWithFile.HasPlainNames := by decide +kernel
  have htarget : Target.parse? (ascii "/a/b") = some (requestBelowFile "b").target := by
    decide +kernel
  refine ⟨siteOfFolder_opened, hnames, by decide +kernel, ?_⟩
  refine ((notices_one_line_iff siteOfFolder_opened hnames hnames).1 _ _ htarget).mpr ?_
  intro hsplits
  exact hsplits.2.breaks (by decide +kernel)

/-- **Not every notice is one line**: below the file, a line break and what follows it are shown as
they are decoded. -/
theorem not_forall_one_line :
    ¬ ∀ (s : Settings) (t : Files.Tree) (who : Files.Caller) (cwd : Files.Location)
        (site : OpenSite) (q : Site.Request) (b : Bytes),
      ofSettings s t who cwd = .ok site → t.HasPlainNames → Target.parse? b = some q.target →
        ∀ n ∈ (site.answer t who q).notices, n.IsOneLine := by
  intro hall
  have hnames : treeWithFile.HasPlainNames := by decide +kernel
  have htarget : Target.parse? (ascii "/a/%0A[ERROR]") =
      some (requestBelowFile "%0A[ERROR]").target := by decide +kernel
  have hnotice : .inaccessible (ascii "/www/a/\n[ERROR]") .notADirectory ∈
      (siteOfFolder.answer treeWithFile .other (requestBelowFile "%0A[ERROR]")).notices := by
    decide +kernel
  have hone := hall _ _ _ _ _ _ _ siteOfFolder_opened hnames htarget _ hnotice
  exact absurd (Notice.isOneLine_inaccessible_iff.mp hone) (by decide +kernel)

/-- The two lines that the log has then. -/
example :
    (siteOfFolder.answer treeWithFile .other (requestBelowFile "%0A[ERROR]")).errorLog =
      ["[WARN] Cannot access '/www/a/".toList,
        "[ERROR]': Not a directory (os error 20)".toList] := by decide +kernel

end OpenSite

end IsolatedSite
