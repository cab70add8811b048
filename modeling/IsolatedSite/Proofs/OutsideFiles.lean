/-
# Files outside the root have no influence

Where a path leads goes by folders, links and permission bits, and by which names are there; so a
tree without the contents and dates of its files, its `outline`, answers every such question as
the tree does (`locate_outline`, `list_outline`).  Content and date of a file are asked for only
after its location has been found to lie under the root.

Two trees that differ in nothing but the contents and dates of files outside the root (`AgreeOn`)
are therefore served alike, one step of handling after the other, with the same notices and the
same octets on the wire (`outside_files_have_no_influence`).  That holds for files that links under
the root lead to, and for those that are named as index files.
-/
import IsolatedSite.Connection.Exchange
import IsolatedSite.Proofs.Containment

namespace IsolatedSite

open IsolatedSite.Http

namespace Files

/-! ## 1. Outlines -/

/-- A node without the content and the date of a file. -/
def Node.outline : Node → Node
  | .file _ _ mode => .file [] ⟨0, 0⟩ mode
  | n => n

namespace Tree

/-- A tree without the contents and the dates of its files. -/
def outline (t : Tree) : Tree := ⟨t.nodes.map fun n => (n.1, n.2.outline)⟩

section Outline

variable (t : Tree) (who : Caller) (cwd : Location) (p : Path)

theorem find?_outline (l : Location) : t.outline.find? l = (t.find? l).map Node.outline := by
  obtain ⟨nodes⟩ := t
  have hlookup : (nodes.map fun n => (n.1, n.2.outline)).lookup l =
      (nodes.lookup l).map Node.outline := by
    induction nodes with
    | nil => rfl
    | cons n nodes ih =>
      rw [List.map_cons, List.lookup_cons, List.lookup_cons, ih]
      cases l == n.1 <;> rfl
  rw [find?, find?, outline, hlookup]
  cases nodes.lookup l with
  | some n => rfl
  | none =>
    -- only the root can be there without being listed, and it is a folder
    dsimp only [Option.map_none]
    split <;> rfl

theorem namesIn_outline (l : Location) : t.outline.namesIn l = t.namesIn l := by
  simp only [namesIn, outline, List.filterMap_map]
  rfl

/-- **The steps of a path** see folders, links and whether a name is there at all. -/
theorem descend_outline (l : Location) (steps : List Step) :
    t.outline.descend who l steps = t.descend who l steps := by
  induction steps generalizing l with
  | nil => rfl
  | cons s rest ih =>
    unfold descend
    rw [find?_outline]
    cases t.find? l with
    | none => rfl
    | some n =>
      cases n with
      | file content modified mode => rfl
      | link target => rfl
      | folder mode =>
        simp only [Option.map_some, Node.outline, ih]
        cases s with
        | here => rfl
        | up => rfl
        | folderOnly => rfl
        | into name =>
          dsimp only
          rw [find?_outline]
          cases t.find? (l ++ [name]) with
          | none => rfl
          | some n => cases n <;> rfl

/-- The induction is on the links that may still be followed. -/
theorem resolve_outline (links : Nat) (l : Location) (steps : List Step) :
    t.outline.resolve who links l steps = t.resolve who links l steps := by
  induction links generalizing l steps with
  | zero =>
    unfold resolve
    rw [descend_outline]
  | succ links ih =>
    unfold resolve
    rw [descend_outline]
    simp only [ih]

theorem locate_outline : t.outline.locate who cwd p = t.locate who cwd p := by
  simp only [locate, place, resolve_outline]

theorem canonical_outline : t.outline.canonical who cwd p = t.canonical who cwd p := by
  simp only [canonical, locate_outline]

/-- **What is found** is the outline of what is found in the tree. -/
theorem stat_outline : t.outline.stat who cwd p = (t.stat who cwd p).map Node.outline := by
  simp only [stat, locate_outline, find?_outline]
  cases t.locate who cwd p with
  | error e => rfl
  | ok l =>
    dsimp only
    cases t.find? l <;> rfl

theorem isFolder_outline : t.outline.isFolder who cwd p = t.isFolder who cwd p := by
  simp only [isFolder, stat_outline]
  cases t.stat who cwd p with
  | error e => rfl
  | ok n => cases n <;> rfl

theorem isFile_outline : t.outline.isFile who cwd p = t.isFile who cwd p := by
  simp only [isFile, stat_outline]
  cases t.stat who cwd p with
  | error e => rfl
  | ok n => cases n <;> rfl

theorem isLinkAt_outline (l : Location) : list.isLinkAt t.outline l = list.isLinkAt t l := by
  simp only [list.isLinkAt, find?_outline]
  cases t.find? l with
  | none => rfl
  | some n => cases n <;> rfl

/-- **The names in a folder** and the links among them are those of the outline. -/
theorem list_outline : t.outline.list who cwd p = t.list who cwd p := by
  simp only [list, locate_outline, find?_outline, namesIn_outline, isLinkAt_outline]
  cases t.locate who cwd p with
  | error e => rfl
  | ok l =>
    dsimp only
    cases t.find? l with
    | none => rfl
    | some n => cases n <;> rfl

end Outline

/-! ## 2. Trees that agree -/

/-- Two trees differ at most in the contents and dates of files, and not in those of files at
locations with a property. -/
structure AgreeOn (P : Location → Prop) (t u : Tree) : Prop where
  outline : t.outline = u.outline
  find? : ∀ l, P l → t.find? l = u.find? l

namespace AgreeOn

variable {P : Location → Prop} {t u : Tree} (h : AgreeOn P t u) (who : Caller)
include h

theorem locate (cwd : Location) (p : Path) : t.locate who cwd p = u.locate who cwd p := by
  rw [← locate_outline, h.outline, locate_outline]

theorem canonical (cwd : Location) (p : Path) :
    t.canonical who cwd p = u.canonical who cwd p := by
  rw [← canonical_outline, h.outline, canonical_outline]

theorem isFolder (cwd : Location) (p : Path) : t.isFolder who cwd p = u.isFolder who cwd p := by
  rw [← isFolder_outline, h.outline, isFolder_outline]

theorem isFile (cwd : Location) (p : Path) : t.isFile who cwd p = u.isFile who cwd p := by
  rw [← isFile_outline, h.outline, isFile_outline]

theorem list (cwd : Location) (p : Path) : t.list who cwd p = u.list who cwd p := by
  rw [← list_outline, h.outline, list_outline]

theorem stat_outline (cwd : Location) (p : Path) :
    (t.stat who cwd p).map Node.outline = (u.stat who cwd p).map Node.outline := by
  rw [← Tree.stat_outline, h.outline, Tree.stat_outline]

variable {cwd l : Location} {p : Path}

/-- What is found at a location with the property is the same node. -/
theorem stat_of_locate (hl : t.locate who cwd p = .ok l) (hP : P l) :
    t.stat who cwd p = u.stat who cwd p := by
  simp only [stat, ← h.locate, hl, h.find? l hP]

theorem read_of_locate (hl : t.locate who cwd p = .ok l) (hP : P l) :
    t.read who cwd p = u.read who cwd p := by
  simp only [read, h.stat_of_locate who hl hP]

end AgreeOn

end Tree

end Files

/-! ## 3. Handling side by side -/

namespace Site.Handling

variable {α β : Type}

/-- Two steps that do the same with every result of the one before can stand for each other. -/
theorem andThen_congr {h : Handling α} {next next' : α → Handling β}
    (hnext : ∀ a, h.result = .ok a → next a = next' a) : h >>= next = h >>= next' := by
  obtain ⟨result, notices⟩ := h
  cases result with
  | error e => rfl
  | ok a =>
    change andThen _ _ = andThen _ _
    simp only [andThen, hnext a rfl]

/-- Answers of the file system that are the same, but for what the next step does not look at, are
followed by the same. -/
theorem ofFiles_andThen_congr {path : Path} {found found' : Except Files.OsError α}
    {view : α → α} {next next' : α → Handling β} (hview : found.map view = found'.map view)
    (hnext : ∀ a b, view a = view b → next a = next' b) :
    ofFiles path found >>= next = ofFiles path found' >>= next' := by
  cases found with
  | error e =>
    cases found' with
    | error e' =>
      cases hview
      cases e <;> rfl
    | ok b => cases hview
  | ok a =>
    cases found' with
    | error e' => cases hview
    | ok b =>
      change andThen (done a) next = andThen (done b) next'
      simp only [andThen, done, hnext a b (Except.ok.inj hview)]

end Site.Handling

namespace OpenSite

open Files.Tree Site.Handling

section AnyProperty

variable {P : Files.Location → Prop} {t u : Files.Tree} (h : AgreeOn P t u) (who : Files.Caller)
include h

theorem rowsOf_congr (folder : Path) : Site.rowsOf t who folder = Site.rowsOf u who folder := by
  simp only [Site.rowsOf, h.list, h.isFolder]

theorem indexPath?_congr (site : OpenSite) (folder : Path) :
    site.indexPath? t who folder = site.indexPath? u who folder := by
  simp only [indexPath?, h.isFile]

theorem ensureContained_congr (site : OpenSite) (target : Path) (requested : Text) :
    site.ensureContained t who target requested = site.ensureContained u who target requested := by
  simp only [ensureContained, h.canonical]

theorem ofSettings_congr (s : Settings) (cwd : Files.Location) :
    ofSettings s t who cwd = ofSettings s u who cwd := by
  simp only [ofSettings, h.canonical, h.isFolder]

end AnyProperty

variable {site : OpenSite} {t u : Files.Tree} (h : AgreeOn site.Holds t u) (who : Files.Caller)
include h

/-- **A file is opened only where it lies under the root**, so its content and date are the same. -/
theorem serveFile_congr (q : Site.Inquiry) (path : Path) :
    site.serveFile t who q path = site.serveFile u who q path := by
  unfold serveFile
  rw [← ensureContained_congr h]
  refine andThen_congr fun _ hcontained => ?_
  obtain ⟨l, hl, hholds⟩ := contained_iff.mp (ensureContained_eq_ok.mp hcontained)
  rw [h.stat_of_locate who hl hholds, h.read_of_locate who hl hholds]

theorem serveFolder_congr (q : Site.Inquiry) (folder : Path) :
    site.serveFolder t who q folder = site.serveFolder u who q folder := by
  simp only [serveFolder, serveListing, indexPath?_congr h, serveFile_congr h, rowsOf_congr h]

/-- **What is found is asked for its kind alone** until it is known to lie under the root. -/
theorem resolve_congr (q : Site.Inquiry) : site.resolve t who q = site.resolve u who q := by
  refine andThen_congr fun target _ => ofFiles_andThen_congr (h.stat_outline who [] target) ?_
  intro node node' houtline
  rw [ensureContained_congr h, serveFolder_congr h, serveFile_congr h]
  -- two nodes with one outline are of one kind
  cases node <;> cases node' <;> cases houtline <;> rfl

theorem serve_congr (q : Site.Inquiry) : site.serve t who q = site.serve u who q := by
  simp only [serve, resolve_congr h]

theorem answer_congr (r : Site.Request) : site.answer t who r = site.answer u who r := by
  simp only [answer, handle, serve_congr h]

end OpenSite

namespace Connection

/-- **On the wire**: what is sent and logged looks at the files through the answer alone. -/
theorem serve_congr {site : OpenSite} {w : Surroundings} {u : Files.Tree}
    (h : Files.Tree.AgreeOn site.Holds w.tree u) (incoming : Incoming Trouble) :
    serve site w incoming = serve site { w with tree := u } incoming := by
  have hrequest : serveRequest site w = serveRequest site { w with tree := u } := by
    funext q
    simp only [serveRequest, ← OpenSite.answer_congr h]
    rfl
  have hhead : serveHead site w = serveHead site { w with tree := u } := by
    funext head
    simp only [serveHead, hrequest]
    rfl
  simp only [serve, hhead]
  rfl

end Connection

/-! ## 4. The whole -/

namespace OpenSite

open Files.Tree

/-- **Files outside the root have no influence.**  Where two trees differ only in the contents and
dates of files that do not lie under the root of a site, every inquiry and every request gets the
same reply, with the same notices; every connection is sent the same octets and logs the same lines;
and the site opens on the one tree as on the other.  Under the root of a site that was opened are
the locations that begin with the names of the root's location. -/
theorem outside_files_have_no_influence {site : OpenSite} {t u : Files.Tree}
    (h : AgreeOn site.Holds t u) (who : Files.Caller) :
    (∀ q, site.serve t who q = site.serve u who q) ∧
    (∀ r, site.answer t who r = site.answer u who r) ∧
    (∀ (w : Connection.Surroundings) incoming, w.tree = t →
      Connection.serve site w incoming = Connection.serve site { w with tree := u } incoming) ∧
    (∀ s cwd, ofSettings s t who cwd = ofSettings s u who cwd) ∧
    ∀ s cwd, Files.Location.IsProper cwd → ofSettings s t who cwd = .ok site →
      ∃ root, t.locate who cwd (Utf8.encode s.serve.root) = .ok root ∧
        ∀ l, site.Holds l ↔ root <+: l := by
  refine ⟨serve_congr h who, answer_congr h who, ?_, ofSettings_congr h who, ?_⟩
  · rintro w incoming rfl
    exact Connection.serve_congr h incoming
  · intro s cwd hcwd hopen
    exact holds_iff hcwd hopen

/-- The folder whose index is a link to a file outside, after that file was written again. -/
def treeWithOutsideIndexChanged : Files.Tree :=
  ⟨[([ascii "www"], .folder 0o755), ([ascii "www", ascii "d"], .folder 0o755),
    ([ascii "www", ascii "d", ascii "index.html"], .link (ascii "/secret")),
    ([ascii "secret"], .file (ascii "another one") ⟨86400, 0⟩ 0o644)]⟩

theorem agreeOn_outsideIndex :
    AgreeOn siteOfWww.Holds treeWithOutsideIndex treeWithOutsideIndexChanged where
  outline := by decide
  find? l hl := by
    have hne : (l == [ascii "secret"]) = false := by
      refine beq_false_of_ne ?_
      rintro rfl
      exact absurd hl (by decide)
    simp [Files.Tree.find?, treeWithOutsideIndex, treeWithOutsideIndexChanged, List.lookup_cons,
      hne]

/-- The index of a folder is a link to a file outside, and that file was written again: the folder
is forbidden before and after. -/
theorem outside_index_has_no_influence :
    AgreeOn siteOfWww.Holds treeWithOutsideIndex treeWithOutsideIndexChanged ∧
      treeWithOutsideIndex.read .other [] (ascii "/www/d/index.html") = .ok (ascii "s") ∧
      treeWithOutsideIndexChanged.read .other [] (ascii "/www/d/index.html") =
        .ok (ascii "another one") ∧
      ∀ q, siteOfWww.serve treeWithOutsideIndex .other q =
        siteOfWww.serve treeWithOutsideIndexChanged .other q :=
  ⟨agreeOn_outsideIndex, by decide +kernel, by decide +kernel,
    (outside_files_have_no_influence agreeOn_outsideIndex .other).1⟩

end OpenSite

end IsolatedSite
