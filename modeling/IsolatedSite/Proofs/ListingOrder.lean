/-
# The order of a listing

The names in a folder come in whatever order the file system has them in.  A listing puts them into
the order of their small letters, which is a total order of texts (`Text.IsBefore`), so that where
no two names have the same small letters, only one order is left for the rows
(`eq_of_isOrdered`).

What else a site looks at is what a path leads to, one path at a time.  Two trees that have the same
nodes, and in each folder the same names in some order (`SameButForOrder`), agree on all of that;
they are answered alike, and the listing has its rows in the same order
(`listing_complete_and_ordered`).
-/
import IsolatedSite.Proofs.ListingLinks
import IsolatedSite.Proofs.ListingMarkup
import IsolatedSite.Proofs.OutsideFiles

namespace IsolatedSite

/-! ## 1. The order of rows -/

/-- A text stands before another one: where they begin to differ it ends, or has the smaller
character. -/
def Text.IsBefore (s t : Text) : Prop := List.Lex (fun a b => a < b) s t

instance (s t : Text) : Decidable (Text.IsBefore s t) :=
  inferInstanceAs (Decidable (List.lt s t))

namespace Text.IsBefore

variable {s t u : Text}

theorem trans (h : IsBefore s t) (h' : IsBefore t u) : IsBefore s u := List.lt_trans h h'

theorem asymm (h : IsBefore s t) : ¬ IsBefore t s := List.lt_asymm h

/-- Of two texts one stands before the other. -/
theorem of_not (h : ¬ IsBefore t s) (hne : s ≠ t) : IsBefore s t :=
  (List.le_iff_lt_or_eq.mp h).resolve_right hne

end Text.IsBefore

namespace Site

/-- **The order of texts** has one in front of another unless that stands before it. -/
theorem textOrder_iff {s t : Text} : textOrder s t = true ↔ ¬ Text.IsBefore t s := by
  induction s generalizing t with
  | nil => simp [textOrder, Text.IsBefore]
  | cons a s ih =>
    cases t with
    | nil => simp [textOrder, Text.IsBefore]
    | cons b t =>
      have hcons : Text.IsBefore (b :: t) (a :: s) ↔ b < a ∨ b = a ∧ Text.IsBefore t s :=
        List.cons_lex_cons_iff
      have hchar : a.toNat < b.toNat ↔ a < b := Iff.rfl
      rw [textOrder, hcons, Bool.or_eq_true, decide_eq_true_eq, Bool.and_eq_true, beq_iff_eq, ih,
        hchar, not_or, not_and]
      rcases Nat.lt_trichotomy a.toNat b.toNat with hlt | heq | hgt
      · exact ⟨fun _ => ⟨Nat.lt_asymm hlt, fun hba => absurd (hba ▸ hlt) (Nat.lt_irrefl _)⟩,
          fun _ => .inl hlt⟩
      · obtain rfl := Char.toNat_inj.mp heq
        have hirrefl : ¬ a < a := Nat.lt_irrefl _
        exact ⟨fun h => ⟨hirrefl, fun _ => (h.resolve_left hirrefl).2⟩,
          fun h => .inr ⟨rfl, h.2 rfl⟩⟩
      · refine ⟨fun h => ?_, fun h => absurd hgt h.1⟩
        rcases h with hab | ⟨rfl, -⟩
        · exact absurd hgt (Nat.lt_asymm hab)
        · exact absurd hgt (Nat.lt_irrefl _)

theorem rowOrder_iff {a b : Row} :
    rowOrder a b = true ↔ ¬ Text.IsBefore (Text.lower b.name) (Text.lower a.name) :=
  textOrder_iff

/-- Rows in strictly increasing order of their names in small letters. -/
def IsOrdered (rows : List Row) : Prop :=
  rows.Pairwise fun a b => Text.IsBefore (Text.lower a.name) (Text.lower b.name)

/-- **There is one order** for rows that differ in small letters. -/
theorem eq_of_isOrdered {rows rows' : List Row} (h : IsOrdered rows) (h' : IsOrdered rows')
    (hperm : rows.Perm rows') : rows = rows' :=
  hperm.eq_of_pairwise (fun _ _ _ _ hlt hgt => absurd hgt hlt.asymm) h h'

/-- Sorting puts rows that differ in small letters into that order. -/
theorem isOrdered_mergeSort {rows : List Row}
    (h : (rows.map fun r => Text.lower r.name).Nodup) : IsOrdered (rows.mergeSort rowOrder) := by
  have hsorted : (rows.mergeSort rowOrder).Pairwise fun a b => rowOrder a b = true := by
    refine List.pairwise_mergeSort (fun a b c hab hbc => ?_) (fun a b => ?_) rows
    · rw [rowOrder_iff] at hab hbc ⊢
      intro hca
      -- then `b` has the same name as `a`, or stands between both
      by_cases hsame : Text.lower a.name = Text.lower b.name
      · exact hbc (hsame ▸ hca)
      · exact hbc (hca.trans (.of_not hab hsame))
    · rw [Bool.or_eq_true, rowOrder_iff, rowOrder_iff]
      by_cases hba : Text.IsBefore (Text.lower b.name) (Text.lower a.name)
      · exact .inr hba.asymm
      · exact .inl hba
  have hdiffer : (rows.mergeSort rowOrder).Pairwise fun a b =>
      Text.lower a.name ≠ Text.lower b.name :=
    List.pairwise_map.mp (((List.mergeSort_perm rows rowOrder).map _).nodup_iff.mpr h)
  refine (hsorted.and hdiffer).imp ?_
  rintro a b ⟨hle, hne⟩
  exact .of_not (rowOrder_iff.mp hle) hne

/-! ## 2. The rows of a folder -/

/-- The row of an entry of a folder. -/
def rowOf (t : Files.Tree) (who : Files.Caller) (folder : Path) (entry : Bytes × Bool) : Row :=
  ⟨Utf8.decodeLossy entry.1, t.isFolder who [] (Path.join folder entry.1), entry.2⟩

/-- The names of entries, as they are shown, differ in small letters. -/
def DifferInLetters (entries : List (Bytes × Bool)) : Prop :=
  (entries.map fun e => Text.lower (Utf8.decodeLossy e.1)).Nodup

instance (entries : List (Bytes × Bool)) : Decidable (DifferInLetters entries) :=
  inferInstanceAs (Decidable (List.Nodup _))

/-- The rows of entries in the order in which they are shown. -/
def orderedRows (t : Files.Tree) (who : Files.Caller) (folder : Path)
    (entries : List (Bytes × Bool)) : List Row :=
  (entries.map (rowOf t who folder)).mergeSort rowOrder

section Rows

variable {t : Files.Tree} {who : Files.Caller} {folder : Path} {entries order : List (Bytes × Bool)}

theorem rowsOf_of_list (h : t.list who [] folder = .ok entries) :
    rowsOf t who folder = .ok (orderedRows t who folder entries) := by
  rw [rowsOf, h]
  rfl

/-- **One row for each entry**, and no others. -/
theorem orderedRows_perm : (orderedRows t who folder entries).Perm
    (entries.map (rowOf t who folder)) := List.mergeSort_perm _ _

theorem isOrdered_orderedRows (h : DifferInLetters entries) :
    IsOrdered (orderedRows t who folder entries) := by
  refine isOrdered_mergeSort ?_
  rw [List.map_map]
  exact h

/-- **The order in which entries are reported** makes no difference. -/
theorem orderedRows_eq (h : DifferInLetters entries) (hperm : order.Perm entries) :
    orderedRows t who folder order = orderedRows t who folder entries := by
  have horder : DifferInLetters order := (hperm.map _).nodup_iff.mpr h
  refine eq_of_isOrdered (isOrdered_orderedRows horder) (isOrdered_orderedRows h) ?_
  exact orderedRows_perm.trans ((hperm.map _).trans orderedRows_perm.symm)

end Rows

end Site

/-! ## 3. Trees that differ in order -/

namespace Files.Tree

/-- Two trees with the same nodes, and in each folder the same names in some order. -/
structure SameButForOrder (t u : Tree) : Prop where
  find? : ∀ l, t.find? l = u.find? l
  names : ∀ l, (t.namesIn l).Perm (u.namesIn l)

theorem lookup_eq_some_iff_mem {nodes : List (Location × Node)}
    (h : (nodes.map Prod.fst).Nodup) {l : Location} {n : Node} :
    nodes.lookup l = some n ↔ (l, n) ∈ nodes := by
  induction nodes with
  | nil => simp
  | cons m nodes ih =>
    rw [List.map_cons, List.nodup_cons] at h
    obtain ⟨hm, hnodes⟩ := h
    by_cases hl : l = m.1
    · subst hl
      rw [List.lookup_cons_self, List.mem_cons]
      refine ⟨fun heq => .inl (Prod.ext rfl (Option.some.inj heq).symm), ?_⟩
      rintro (heq | hmem)
      · exact congrArg some (congrArg Prod.snd heq).symm
      · exact absurd (List.mem_map_of_mem hmem) hm
    · have hne : (l == m.1) = false := beq_false_of_ne hl
      rw [List.lookup_cons, hne, List.mem_cons, ← ih hnodes]
      exact ⟨.inr, fun hor => hor.resolve_left fun heq => hl (congrArg Prod.fst heq)⟩

/-- Nodes at different locations can be listed in any order. -/
theorem sameButForOrder_of_perm {t u : Tree} (hperm : t.nodes.Perm u.nodes)
    (h : (t.nodes.map Prod.fst).Nodup) : SameButForOrder t u where
  find? l := by
    have hu : (u.nodes.map Prod.fst).Nodup := (hperm.map _).nodup_iff.mp h
    have hlookup : t.nodes.lookup l = u.nodes.lookup l := by
      refine Option.ext fun n => ?_
      rw [lookup_eq_some_iff_mem h, lookup_eq_some_iff_mem hu, hperm.mem_iff]
    rw [Tree.find?, Tree.find?, hlookup]
  names _ := hperm.filterMap _

namespace SameButForOrder

variable {t u : Tree} (h : SameButForOrder t u)
include h

/-- **The steps of a path** go by nodes alone. -/
theorem descend : t.descend = u.descend := by
  funext who l steps
  induction steps generalizing l with
  | nil => rfl
  | cons s rest ih =>
    unfold Tree.descend
    simp only [h.find?, ih]

theorem resolve : t.resolve = u.resolve := by
  funext who links l steps
  induction links generalizing l steps with
  | zero =>
    unfold Tree.resolve
    rw [h.descend]
  | succ links ih =>
    unfold Tree.resolve
    simp only [h.descend, ih]

theorem locate : t.locate = u.locate := by
  funext who cwd p
  simp only [Tree.locate, place, h.resolve]

theorem stat : t.stat = u.stat := by
  funext who cwd p
  simp only [Tree.stat, h.locate, h.find?]

theorem canonical : t.canonical = u.canonical := by
  funext who cwd p
  simp only [Tree.canonical, h.locate]

theorem isFolder : t.isFolder = u.isFolder := by
  funext who cwd p
  simp only [Tree.isFolder, h.stat]

theorem isFile : t.isFile = u.isFile := by
  funext who cwd p
  simp only [Tree.isFile, h.stat]

theorem read : t.read = u.read := by
  funext who cwd p
  simp only [Tree.read, h.stat]

theorem isLinkAt (l : Location) : list.isLinkAt t l = list.isLinkAt u l := by
  simp only [list.isLinkAt, h.find?]

/-- **The entries of a folder** come in some order. -/
theorem exists_list {who : Caller} {cwd : Location} {p : Path} {entries : List (Bytes × Bool)}
    (hlist : t.list who cwd p = .ok entries) :
    ∃ order, u.list who cwd p = .ok order ∧ order.Perm entries := by
  unfold Tree.list at hlist ⊢
  rw [← h.locate]
  cases hl : t.locate who cwd p with
  | error e =>
    rw [hl] at hlist
    cases hlist
  | ok l =>
    rw [hl] at hlist
    dsimp only at hlist ⊢
    rw [← h.find?]
    cases hn : t.find? l with
    | none =>
      rw [hn] at hlist
      cases hlist
    | some n =>
      rw [hn] at hlist
      cases n with
      | file => cases hlist
      | link => cases hlist
      | folder mode =>
        by_cases hmay : who.may .read mode = true
        · simp only [hmay, if_true, Except.ok.injEq] at hlist ⊢
          refine ⟨_, rfl, ?_⟩
          rw [← hlist]
          simp only [← h.isLinkAt]
          exact (h.names l).symm.map _
        · simp [hmay] at hlist

end SameButForOrder

end Files.Tree

/-! ## 4. Answers -/

namespace OpenSite

open Files.Tree Site.Handling

variable {t u : Files.Tree} {who : Files.Caller}

theorem rowsOf_of_sameButForOrder (h : SameButForOrder t u) {folder : Path}
    {entries : List (Bytes × Bool)} (hlist : t.list who [] folder = .ok entries)
    (hdiffer : Site.DifferInLetters entries) :
    Site.rowsOf u who folder = Site.rowsOf t who folder := by
  obtain ⟨order, horder, hperm⟩ := h.exists_list hlist
  have hrow : Site.rowOf u who folder = Site.rowOf t who folder := by
    funext e
    rw [Site.rowOf, Site.rowOf, h.isFolder]
  rw [Site.rowsOf_of_list hlist, Site.rowsOf_of_list horder, ← Site.orderedRows_eq hdiffer hperm,
    Site.orderedRows, Site.orderedRows, hrow]

/-- **Nothing but a listing goes by the order of names**, and it lists the folder that is asked
for. -/
theorem answer_of_sameButForOrder (h : SameButForOrder t u) {site : OpenSite} {r : Site.Request}
    (hrows : ∀ folder, Site.translate? site.root r.target.path = some folder →
      Site.rowsOf u who folder = Site.rowsOf t who folder) :
    site.answer u who r = site.answer t who r := by
  have hcontained : ∀ path requested, site.ensureContained u who path requested =
      site.ensureContained t who path requested := by
    simp only [ensureContained, h.canonical, implies_true]
  have hfile : ∀ q path, site.serveFile u who q path = site.serveFile t who q path := by
    simp only [serveFile, hcontained, h.stat, h.read, implies_true]
  have hresolve : site.resolve u who (.ofRequest r) = site.resolve t who (.ofRequest r) := by
    refine andThen_congr fun target htarget => ?_
    have hlisting : serveListing u who (.ofRequest r) target =
        serveListing t who (.ofRequest r) target := by
      rw [serveListing, serveListing, hrows target (result_orFail_eq_ok.mp htarget)]
    have hfolder : site.serveFolder u who (.ofRequest r) target =
        site.serveFolder t who (.ofRequest r) target := by
      simp only [serveFolder, indexPath?, h.isFile, hfile, hlisting]
    simp only [h.stat, hcontained, hfolder, hfile]
  simp only [answer, handle, serve, hresolve]

/-- **A folder without an index file is listed**, where listings are not turned off. -/
theorem listsFolder_of_asksFor {site : OpenSite} {r : Site.Request} {folder : Path} {mode : Nat}
    {rows : List Site.Row} (hmethod : r.method = Site.methodGet)
    (hasks : site.AsksFor t who (.ofRequest r) folder (.folder mode))
    (hslash : endsInSlash r.target.path = true) (hindex : site.indexPath? t who folder = none)
    (hlisting : site.settings.serve.directoryListing = true)
    (hrows : Site.rowsOf t who folder = .ok rows) :
    site.ListsFolder t who r folder (site.finished (Http.pageAnswer
      (Site.listingPage (Percent.decodeText r.target.path) rows) false).response) := by
  refine ⟨hslash, hasks.translated, ?_, rows, hrows, rfl⟩
  have hresult : (site.resolve t who (.ofRequest r)).result = .ok (Http.pageAnswer
      (Site.listingPage (Percent.decodeText r.target.path) rows) false).response := by
    have hpath : endsInSlash (Site.Inquiry.ofRequest r).path = true := hslash
    rw [hasks.result_resolve]
    simp only [serveFolder, hpath, not_true_eq_false, if_false, hindex, hlisting, if_true,
      serveListing, hrows, result_ofBuilt, isHead_ofRequest hmethod]
    rfl
  rw [response_answer (.inl hmethod)]
  simp only [serve, hresult]
  rfl

/-- **A listing is complete and ordered.**  Where the names in a folder differ in small letters, the
listing has one row for each of them and no others, in strictly increasing order of the names in
small letters; and it has the same rows in whatever order the names are reported, also where a tree
differs from this one in the order of its names everywhere.  The page that is sent is read as these
rows, and the whole answer, octet by octet, is the same for all such trees. -/
theorem listing_complete_and_ordered {folder : Path} {entries : List (Bytes × Bool)}
    (hlist : t.list who [] folder = .ok entries) (hdiffer : Site.DifferInLetters entries) :
    ∃ rows, Site.rowsOf t who folder = .ok rows ∧
      rows.Perm (entries.map (Site.rowOf t who folder)) ∧
      rows.Pairwise (fun a b => Text.IsBefore (Text.lower a.name) (Text.lower b.name)) ∧
      (∀ order, order.Perm entries → Site.orderedRows t who folder order = rows) ∧
      (∀ u, SameButForOrder t u → Site.rowsOf u who folder = .ok rows) ∧
      ∀ (site : OpenSite) (q : Site.Request) (r : Http.Response),
        site.ListsFolder t who q folder r →
        Html.tokens (Utf8.decodeLossy r.body) =
            Site.listingTokens (Percent.decodeText q.target.path) rows ∧
          ∀ u, SameButForOrder t u → site.answer u who q = site.answer t who q := by
  have hrows := Site.rowsOf_of_list hlist
  refine ⟨Site.orderedRows t who folder entries, hrows, Site.orderedRows_perm,
    Site.isOrdered_orderedRows hdiffer, fun order => Site.orderedRows_eq hdiffer, fun u hu => ?_,
    fun site q r hlists => ⟨?_, fun u hu => ?_⟩⟩
  · rw [rowsOf_of_sameButForOrder hu hlist hdiffer, hrows]
  · obtain ⟨rows, hrows', rfl⟩ := hlists.listed
    obtain rfl := Except.ok.inj (hrows.symm.trans hrows')
    rw [body_finished, Http.pageAnswer_eq, Http.bodyUnless_eq_self rfl, Utf8.decodeLossy_encode,
      Site.tokens_listingPage]
  · refine answer_of_sameButForOrder hu fun target htarget => ?_
    obtain rfl := Option.some.inj (hlists.translated.symm.trans htarget)
    exact rowsOf_of_sameButForOrder hu hlist hdiffer

/-- A folder with a capital letter, a small one, a link, and a name that is no text. -/
def treeOfFourNames : Files.Tree :=
  ⟨[([ascii "www"], .folder 0o755), ([ascii "www", ascii "d"], .folder 0o755),
    ([ascii "www", ascii "d", [0xFF]], .file [] ⟨0, 0⟩ 0o644),
    ([ascii "www", ascii "d", ascii "b"], .folder 0o700),
    ([ascii "www", ascii "d", ascii "C"], .link (ascii "b")),
    ([ascii "www", ascii "d", ascii "a"], .file [] ⟨0, 0⟩ 0o644)]⟩

/-- The same folder, read from its end. -/
def treeOfFourNamesReversed : Files.Tree := ⟨treeOfFourNames.nodes.reverse⟩

/-- What it holds. -/
def fourNames : List (Bytes × Bool) :=
  [([0xFF], false), (ascii "b", false), (ascii "C", true), (ascii "a", false)]

/-- The rows of its listing. -/
def fourRows : List Site.Row :=
  [⟨['a'], false, false⟩, ⟨['b'], true, false⟩, ⟨['C'], true, true⟩,
    ⟨[Char.ofNat 0xFFFD], false, false⟩]

/-- The answer to a request for it. -/
def listingOfFour : Http.Response :=
  siteOfWww.finished (Http.pageAnswer (Site.listingPage "/d/".toList fourRows) false).response

/-- **The folder read from its end** has the same listing. -/
theorem fourNames_ordered :
    treeOfFourNames.list .other [] (ascii "/www/d") = .ok fourNames ∧
      Site.DifferInLetters fourNames ∧
      treeOfFourNamesReversed.list .other [] (ascii "/www/d") = .ok fourNames.reverse ∧
      Site.rowsOf treeOfFourNames .other (ascii "/www/d") = .ok fourRows ∧
      Site.rowsOf treeOfFourNamesReversed .other (ascii "/www/d") = .ok fourRows ∧
      (siteOfWww.answer treeOfFourNames .other requestForD).response = some listingOfFour ∧
      (siteOfWww.answer treeOfFourNamesReversed .other requestForD).response =
        some listingOfFour := by
  have hlist : treeOfFourNames.list .other [] (ascii "/www/d") = .ok fourNames := by
    decide +kernel
  have hdiffer : Site.DifferInLetters fourNames := by decide +kernel
  have horder : SameButForOrder treeOfFourNames treeOfFourNamesReversed :=
    sameButForOrder_of_perm (List.reverse_perm _).symm (by decide)
  obtain ⟨rows, hrows, hcomplete, hincreasing, -, hother, hpage⟩ :=
    listing_complete_and_ordered hlist hdiffer
  obtain rfl : rows = fourRows := by
    refine Site.eq_of_isOrdered hincreasing ?_ (hcomplete.trans ?_)
    · unfold Site.IsOrdered
      decide +kernel
    · decide +kernel
  have hasks : siteOfWww.AsksFor treeOfFourNames .other (.ofRequest requestForD)
      (ascii "/www/d") (.folder 0o755) :=
    ⟨by decide +kernel, by decide +kernel, ⟨ascii "/www/d", by decide +kernel, by decide⟩⟩
  have hlists := listsFolder_of_asksFor rfl hasks (by decide) (by decide +kernel) rfl hrows
  refine ⟨hlist, hdiffer, by decide +kernel, hrows, hother _ horder, hlists.response, ?_⟩
  rw [(hpage _ _ _ hlists).2 _ horder]
  exact hlists.response

end OpenSite

end IsolatedSite
