/-
# Where paths lead

Following a path ends at a location, if it ends anywhere.  Two things are true of that location
however many links were followed: its names are names (`IsName`: no slash in them, and neither `.`
nor `..`), and what stands there is a file or a folder and no link (`locate_spec`).  Both come from
what the single steps keep (`Kept`), the second one from the folders on the way.

A location of names is spelled by one path and is read off it again (`components_pathOf`), so that
comparing canonical paths component by component is comparing locations.
-/
import IsolatedSite.Files.Tree
import Mathlib.Data.List.Basic

namespace IsolatedSite.Files

/-! ## 1. Names -/

/-- A name that a folder can hold. -/
structure IsName (name : Bytes) : Prop where
  ne_nil : name ≠ []
  slash_not_mem : Path.slash ∉ name
  ne_here : name ≠ [Path.dot]
  ne_up : name ≠ [Path.dot, Path.dot]

/-- A location of names. -/
def Location.IsProper (l : Location) : Prop := ∀ name ∈ l, IsName name

theorem Location.IsProper.dropLast {l : Location} (h : l.IsProper) :
    Location.IsProper l.dropLast := fun name hn => h name (List.dropLast_subset l hn)

theorem Location.IsProper.concat {l : Location} (h : l.IsProper) {name : Bytes}
    (hname : IsName name) : Location.IsProper (l ++ [name]) := by
  intro n hn
  rcases List.mem_append.mp hn with hn | hn
  · exact h n hn
  · exact List.mem_singleton.mp hn ▸ hname

theorem not_mem_of_mem_splitAtEach {α : Type} [DecidableEq α] {sep : α} {xs piece : List α}
    (h : piece ∈ splitAtEach sep xs) : sep ∉ piece := by
  induction xs generalizing piece with
  | nil => simp_all [splitAtEach]
  | cons x xs ih =>
    by_cases hx : x = sep
    · rw [splitAtEach, if_pos hx] at h
      rcases List.mem_cons.mp h with rfl | h
      · simp
      · exact ih h
    · rw [splitAtEach, if_neg hx] at h
      cases hsplit : splitAtEach sep xs with
      | nil =>
        rw [hsplit] at h
        rw [List.mem_singleton.mp h]
        simpa using Ne.symm hx
      | cons p ps =>
        rw [hsplit] at h
        rcases List.mem_cons.mp h with rfl | h
        · have hp : sep ∉ p := ih (by simp [hsplit])
          simp [hp, Ne.symm hx]
        · exact ih (by simp [hsplit, h])

theorem eq_of_splitAtEach {α : Type} [DecidableEq α] {sep : α} {xs : List α}
    (h : ∀ piece ∈ splitAtEach sep xs, piece = []) : ∀ x ∈ xs, x = sep := by
  induction xs with
  | nil => simp
  | cons x xs ih =>
    by_cases hx : x = sep
    · rw [splitAtEach, if_pos hx] at h
      intro y hy
      rcases List.mem_cons.mp hy with rfl | hy
      · exact hx
      · exact ih (fun piece hp => h piece (List.mem_cons_of_mem _ hp)) y hy
    · rw [splitAtEach, if_neg hx] at h
      cases hsplit : splitAtEach sep xs <;> simp [hsplit] at h

namespace Tree

/-- A step into what can be a name, or any other step. -/
def Step.IsProper : Step → Prop
  | .into name => IsName name
  | _ => True

theorem isProper_stepOf {piece : Bytes} (hne : piece ≠ []) (hslash : Path.slash ∉ piece) :
    (stepOf piece).IsProper := by
  unfold stepOf
  split
  · trivial
  · split
    · trivial
    · exact ⟨hne, hslash, by assumption, by assumption⟩

theorem isProper_stepsOf (p : Path) : ∀ s ∈ stepsOf p, s.IsProper := by
  intro s hs
  rcases List.mem_append.mp hs with hs | hs
  · obtain ⟨piece, hpiece, rfl⟩ := List.mem_map.mp hs
    obtain ⟨hsplit, hne⟩ := List.mem_filter.mp hpiece
    exact isProper_stepOf (by simpa using hne) (not_mem_of_mem_splitAtEach hsplit)
  · split at hs
    · rw [List.mem_singleton.mp hs]
      trivial
    · simp at hs

/-- A path that is not empty has steps: a last piece, or a slash behind it. -/
theorem stepsOf_ne_nil {p : Path} (h : p ≠ []) : stepsOf p ≠ [] := by
  intro hnil
  obtain ⟨hpieces, hlast⟩ := List.append_eq_nil_iff.mp hnil
  have hslash : ∀ x ∈ p, x = Path.slash := by
    refine eq_of_splitAtEach fun piece hp => ?_
    by_contra hne
    have hmem : piece ∈ (splitAtEach Path.slash p).filter fun x => x ≠ [] :=
      List.mem_filter.mpr ⟨hp, by simpa using hne⟩
    rw [List.map_eq_nil_iff.mp hpieces] at hmem
    cases hmem
  have hend : p.getLast? = some Path.slash := by
    rw [List.getLast?_eq_some_getLast h, hslash _ (List.getLast_mem h)]
  simp [hend] at hlast

/-! ## 2. One step -/

/-- Where a run stops, a location and the steps to go satisfy what is to be kept. -/
def Stop.Keeps (P : Location → Prop) : Stop → Prop
  | .found l | .vacant l => P l
  | .link l _ rest => P l ∧ ∀ s ∈ rest, s.IsProper

/-- What every step keeps: going up, and going into a folder by a name. -/
structure Kept (t : Tree) (P : Location → Prop) : Prop where
  up : ∀ l, P l → P l.dropLast
  into : ∀ l mode name, P l → t.find? l = some (.folder mode) → IsName name → P (l ++ [name])

variable {t : Tree} {who : Caller}

/-- **One step** that does not fail, with what is found where it leads. -/
theorem descend_cons {l : Location} {s : Step} {rest : List Step} {stop : Stop}
    (h : t.descend who l (s :: rest) = .ok stop) : ∃ mode, t.find? l = some (.folder mode) ∧
      (((s = .here ∨ s = .folderOnly) ∧ t.descend who l rest = .ok stop) ∨
      (s = .up ∧ t.descend who l.dropLast rest = .ok stop) ∨
      ∃ name, s = .into name ∧
        ((∃ target, t.find? (l ++ [name]) = some (.link target) ∧ stop = .link l target rest) ∨
          (t.find? (l ++ [name]) = none ∧ stop = .vacant (l ++ [name])) ∨
          ∃ n, t.find? (l ++ [name]) = some n ∧ (∀ target, n ≠ .link target) ∧
            t.descend who (l ++ [name]) rest = .ok stop)) := by
  unfold descend at h
  split at h
  · rename_i mode hfolder
    refine ⟨mode, hfolder, ?_⟩
    by_cases honly : s = .folderOnly
    · rw [if_pos honly] at h
      exact Or.inl ⟨Or.inr honly, h⟩
    · rw [if_neg honly] at h
      by_cases hmay : who.may .search mode = true
      · rw [if_neg (by simp [hmay])] at h
        cases s with
        | here => exact Or.inl ⟨Or.inl rfl, h⟩
        | folderOnly => exact absurd rfl honly
        | up => exact Or.inr (Or.inl ⟨rfl, h⟩)
        | into name =>
          refine Or.inr (Or.inr ⟨name, rfl, ?_⟩)
          simp only at h
          split at h
          · cases h
          · split at h
            · rename_i target htarget
              exact Or.inl ⟨target, htarget, (Except.ok.inj h).symm⟩
            · rename_i n hlink hn
              exact Or.inr (Or.inr ⟨n, hn, fun target heq => hlink target heq, h⟩)
            · rename_i hnone
              split at h
              · exact Or.inr (Or.inl ⟨hnone, (Except.ok.inj h).symm⟩)
              · cases h
      · rw [if_pos hmay] at h
        cases h
  · cases h
  · cases h

/-! ## 3. Whole paths -/

/-- The induction is on the steps. -/
theorem descend_keeps {P : Location → Prop} (hP : Kept t P) {l : Location} {steps : List Step}
    {stop : Stop} (h : t.descend who l steps = .ok stop) (hl : P l)
    (hsteps : ∀ s ∈ steps, s.IsProper) : stop.Keeps P := by
  induction steps generalizing l with
  | nil => exact Except.ok.inj h ▸ hl
  | cons s rest ih =>
    have hrest : ∀ s ∈ rest, s.IsProper := fun s hs => hsteps s (List.mem_cons_of_mem _ hs)
    obtain ⟨mode, hfolder, ⟨-, h⟩ | ⟨-, h⟩ | ⟨name, rfl, hinto⟩⟩ := descend_cons h
    · exact ih h hl hrest
    · exact ih h (hP.up l hl) hrest
    · have hname : IsName name := hsteps (.into name) List.mem_cons_self
      have hnext := hP.into l mode name hl hfolder hname
      rcases hinto with ⟨target, -, rfl⟩ | ⟨-, rfl⟩ | ⟨n, -, -, h⟩
      · exact ⟨hl, hrest⟩
      · exact hnext
      · exact ih h hnext hrest

/-- The location of a place. -/
def Place.location : Place → Location
  | .found l | .vacant l => l

/-- The stop of a run that ends at a place. -/
def Place.stop : Place → Stop
  | .found l => .found l
  | .vacant l => .vacant l

/-- A run that does not fail ends where its steps stop, or goes on behind a link. -/
theorem resolve_cases {links : Nat} {l : Location} {steps : List Step} {place : Place}
    (h : t.resolve who links l steps = .ok place) :
    t.descend who l steps = .ok place.stop ∨
      ∃ folder target rest fewer, t.descend who l steps = .ok (.link folder target rest) ∧
        links = fewer + 1 ∧
        t.resolve who fewer (if Path.isAbsolute target then [] else folder)
          (stepsOf target ++ rest) = .ok place := by
  unfold resolve at h
  split at h
  · cases h
  · cases h
    exact Or.inl (by assumption)
  · cases h
    exact Or.inl (by assumption)
  · rename_i folder target rest hstop
    cases links with
    | zero => cases h
    | succ fewer => exact Or.inr ⟨folder, target, rest, fewer, hstop, rfl, h⟩

/-- Behind a link the way starts at the root or in the folder of the link. -/
theorem keeps_start {P : Location → Prop} (hroot : P []) {folder : Location} (h : P folder)
    (target : Path) : P (if Path.isAbsolute target then [] else folder) := by
  split
  · exact hroot
  · exact h

theorem isProper_of_mem_append {target : Path} {rest : List Step} (h : ∀ s ∈ rest, s.IsProper) :
    ∀ s ∈ stepsOf target ++ rest, s.IsProper := by
  intro s hs
  rcases List.mem_append.mp hs with hs | hs
  · exact isProper_stepsOf target s hs
  · exact h s hs

/-- **Whatever every step keeps, following a path keeps**, through all links.  The induction is on
the links that may still be followed. -/
theorem resolve_keeps {P : Location → Prop} (hP : Kept t P) (hroot : P []) {links : Nat}
    {l : Location} {steps : List Step} {place : Place}
    (h : t.resolve who links l steps = .ok place) (hl : P l)
    (hsteps : ∀ s ∈ steps, s.IsProper) : P place.location := by
  induction links using Nat.strongRecOn generalizing l steps with
  | ind links ih =>
    rcases resolve_cases h with hstop | ⟨folder, target, rest, fewer, hstop, rfl, hrun⟩
    · cases place <;> exact descend_keeps hP hstop hl hsteps
    · obtain ⟨hfolder, hrest⟩ := descend_keeps hP hstop hl hsteps
      exact ih fewer (Nat.lt_succ_self fewer) hrun (keeps_start hroot hfolder target)
        (isProper_of_mem_append hrest)

/-- A path that is located is not empty, and following it finds the location. -/
theorem resolve_of_locate {cwd l : Location} {p : Path} (h : t.locate who cwd p = .ok l) :
    p ≠ [] ∧ t.resolve who maxLinks (if Path.isAbsolute p then [] else cwd) (stepsOf p) =
      .ok (.found l) := by
  unfold locate at h
  split at h
  · rename_i l' hplace
    cases h
    unfold place at hplace
    split at hplace
    · cases hplace
    · split at hplace
      · cases hplace
      · split at hplace
        · cases hplace
        · exact ⟨by assumption, hplace⟩
  · cases h
  · cases h

theorem locate_keeps {P : Location → Prop} (hP : Kept t P) (hroot : P []) {cwd l : Location}
    (hcwd : P cwd) {p : Path} (h : t.locate who cwd p = .ok l) : P l :=
  resolve_keeps hP hroot (resolve_of_locate h).2 (keeps_start hroot hcwd p) (isProper_stepsOf p)

/-! ## 4. What stands at the end -/

theorem kept_isProper (t : Tree) : Kept t Location.IsProper where
  up _ h := h.dropLast
  into _ _ _ h _ hname := h.concat hname

/-- Everything above a location is a folder. -/
def HasFolders (t : Tree) (l : Location) : Prop :=
  ∀ above, above <+: l → above ≠ l → ∃ mode, t.find? above = some (.folder mode)

theorem hasFolders_nil (t : Tree) : t.HasFolders [] :=
  fun _ habove hne => absurd (List.prefix_nil.mp habove) hne

theorem kept_hasFolders (t : Tree) : Kept t t.HasFolders where
  up l h above habove hne := by
    refine h above (habove.trans (List.dropLast_prefix l)) fun heq => hne ?_
    exact habove.eq_of_length_le (by rw [heq, List.length_dropLast]; omega)
  into l mode name h hfolder _ above habove hne := by
    rcases List.prefix_concat_iff.mp habove with heq | habove
    · exact absurd heq hne
    · by_cases heq : above = l
      · exact ⟨mode, heq ▸ hfolder⟩
      · exact h above habove heq

/-- A file or a folder stands at a location. -/
def IsThere (t : Tree) (l : Location) : Prop :=
  ∃ n, t.find? l = some n ∧ ∀ target, n ≠ .link target

theorem isThere_of_folder {l : Location} {mode : Nat} (h : t.find? l = some (.folder mode)) :
    t.IsThere l := ⟨_, h, by simp⟩

theorem HasFolders.isThere_dropLast {l : Location} (h : t.HasFolders l) {mode : Nat}
    (hfolder : t.find? l = some (.folder mode)) : t.IsThere l.dropLast := by
  by_cases hnil : l = []
  · subst hnil
    exact isThere_of_folder hfolder
  · obtain ⟨mode', hmode⟩ := h l.dropLast (List.dropLast_prefix l) fun heq => by
      have hlen := congrArg List.length heq
      have hpos := List.length_pos_iff.mpr hnil
      rw [List.length_dropLast] at hlen
      omega
    exact isThere_of_folder hmode

/-- A run stops at something that is there, or at a link in something that is there. -/
def Stop.IsThere (t : Tree) : Stop → Prop
  | .found l | .link l _ _ => t.IsThere l
  | .vacant _ => True

theorem isThere_of_descend {l : Location} {steps : List Step} {stop : Stop}
    (h : t.descend who l steps = .ok stop) (hl : t.HasFolders l)
    (hsteps : ∀ s ∈ steps, s.IsProper) (hend : steps = [] → t.IsThere l) : stop.IsThere t := by
  induction steps generalizing l with
  | nil => exact Except.ok.inj h ▸ hend rfl
  | cons s rest ih =>
    have hrest : ∀ s ∈ rest, s.IsProper := fun s hs => hsteps s (List.mem_cons_of_mem _ hs)
    obtain ⟨mode, hfolder, ⟨-, h⟩ | ⟨-, h⟩ | ⟨name, rfl, hinto⟩⟩ := descend_cons h
    · exact ih h hl hrest fun _ => isThere_of_folder hfolder
    · exact ih h ((kept_hasFolders t).up l hl) hrest fun _ => hl.isThere_dropLast hfolder
    · have hname : IsName name := hsteps (.into name) List.mem_cons_self
      rcases hinto with ⟨target, -, rfl⟩ | ⟨-, rfl⟩ | ⟨n, hn, hlink, h⟩
      · exact isThere_of_folder hfolder
      · trivial
      · exact ih h ((kept_hasFolders t).into l mode name hl hfolder hname) hrest fun _ =>
          ⟨n, hn, hlink⟩

/-- What is found is there.  Only an empty target leads on with no steps, and then the way ends in
the folder of the link. -/
theorem isThere_of_resolve {links : Nat} {l l' : Location} {steps : List Step}
    (h : t.resolve who links l steps = .ok (.found l')) (hl : t.HasFolders l)
    (hsteps : ∀ s ∈ steps, s.IsProper) (hend : steps = [] → t.IsThere l) : t.IsThere l' := by
  induction links using Nat.strongRecOn generalizing l steps with
  | ind links ih =>
    rcases resolve_cases h with hstop | ⟨folder, target, rest, fewer, hstop, rfl, hrun⟩
    · exact isThere_of_descend hstop hl hsteps hend
    · obtain ⟨hfolder, hrest⟩ := descend_keeps (kept_hasFolders t) hstop hl hsteps
      have hthere : t.IsThere folder := isThere_of_descend hstop hl hsteps hend
      refine ih fewer (Nat.lt_succ_self fewer) hrun
        (keeps_start (hasFolders_nil t) hfolder target) (isProper_of_mem_append hrest) ?_
      intro hnil
      have htarget : target = [] := by
        by_contra hne
        exact stepsOf_ne_nil hne (List.append_eq_nil_iff.mp hnil).1
      rw [if_neg (by simp [htarget, Path.isAbsolute])]
      exact hthere

theorem isProper_of_locate {cwd l : Location} (hcwd : cwd.IsProper) {p : Path}
    (h : t.locate who cwd p = .ok l) : l.IsProper :=
  locate_keeps (kept_isProper t) (by simp [Location.IsProper]) hcwd h

/-- What is located is there, seen from wherever only folders lead to. -/
theorem isThere_of_locate {cwd l : Location} (hcwd : t.HasFolders cwd) {p : Path}
    (h : t.locate who cwd p = .ok l) : t.IsThere l := by
  obtain ⟨hne, hresolve⟩ := resolve_of_locate h
  exact isThere_of_resolve hresolve (keeps_start (hasFolders_nil t) hcwd p) (isProper_stepsOf p)
    fun hnil => absurd hnil (stepsOf_ne_nil hne)

/-- **What is located** has a location of names, and a file or folder stands there. -/
theorem locate_spec {p : Path} {l : Location} (h : t.locate who [] p = .ok l) :
    l.IsProper ∧ t.IsThere l :=
  ⟨isProper_of_locate (by simp [Location.IsProper]) h, isThere_of_locate (hasFolders_nil t) h⟩

/-! ## 5. Canonical paths -/

theorem splitAtEach_append {α : Type} [DecidableEq α] {sep : α} {xs : List α} (h : sep ∉ xs)
    (rest : List α) : splitAtEach sep (xs ++ sep :: rest) = xs :: splitAtEach sep rest := by
  induction xs with
  | nil => simp [splitAtEach]
  | cons x xs ih =>
    have hx : x ≠ sep := fun heq => h (by simp [heq])
    rw [List.cons_append, splitAtEach, if_neg hx, ih fun hmem => h (List.mem_cons_of_mem _ hmem)]

theorem splitAtEach_of_not_mem {α : Type} [DecidableEq α] {sep : α} {xs : List α} (h : sep ∉ xs) :
    splitAtEach sep xs = [xs] := by
  induction xs with
  | nil => rfl
  | cons x xs ih =>
    have hx : x ≠ sep := fun heq => h (by simp [heq])
    rw [splitAtEach, if_neg hx, ih fun hmem => h (List.mem_cons_of_mem _ hmem)]

/-- The names behind the first slash. -/
theorem splitAtEach_names {name : Bytes} (hname : Path.slash ∉ name) {l : Location}
    (h : l.IsProper) :
    splitAtEach Path.slash (name ++ l.flatMap fun n => Path.slash :: n) = name :: l := by
  induction l generalizing name with
  | nil => simpa using splitAtEach_of_not_mem hname
  | cons n l ih =>
    have hn : Path.slash ∉ n := (h n (by simp)).slash_not_mem
    have hl : Location.IsProper l := fun m hm => h m (List.mem_cons_of_mem _ hm)
    rw [List.flatMap_cons, List.cons_append, splitAtEach_append hname, ih hn hl]

theorem component?_of_isName {name : Bytes} (h : IsName name) :
    Path.component? name = some (.normal name) := by
  rw [Path.component?, if_neg (by simp [h.ne_nil, h.ne_here]), if_neg h.ne_up]

theorem pathOf_cons (name : Bytes) (l : Location) :
    pathOf (name :: l) = Path.slash :: (name ++ l.flatMap fun n => Path.slash :: n) := by
  simp [pathOf]

/-- The path of a location is cut into the names of the location. -/
theorem splitAtEach_pathOf {name : Bytes} {l : Location} (h : Location.IsProper (name :: l)) :
    splitAtEach Path.slash (pathOf (name :: l)) = [] :: name :: l := by
  have hname : Path.slash ∉ name := (h name (by simp)).slash_not_mem
  have hl : Location.IsProper l := fun n hn => h n (List.mem_cons_of_mem _ hn)
  rw [pathOf_cons, splitAtEach, if_pos rfl, splitAtEach_names hname hl]

/-- **The path of a location** is read as the names of the location. -/
theorem components_pathOf {l : Location} (h : l.IsProper) :
    Path.components (pathOf l) = .root :: l.map .normal := by
  cases l with
  | nil => decide
  | cons n l =>
    have hnames : (n :: l).filterMap Path.component? = (n :: l).map .normal := by
      rw [List.filterMap_congr fun m hm => component?_of_isName (h m hm), List.filterMap_eq_map']
    have habsolute : Path.isAbsolute (pathOf (n :: l)) = true := by rw [pathOf_cons]; rfl
    rw [Path.components, splitAtEach_pathOf h, if_pos habsolute,
      List.filterMap_cons_none (by simp [Path.component?]), hnames]
    rfl

/-- The names of one location begin those of another exactly if their paths do. -/
theorem normal_prefix_iff {above l : Location} :
    (Path.Component.root :: above.map .normal) <+: .root :: l.map .normal ↔ above <+: l := by
  have hinj : Function.Injective Path.Component.normal := fun _ _ heq =>
    Path.Component.normal.inj heq
  rw [List.cons_prefix_cons, List.prefix_map_iff_of_injective hinj]
  simp

/-! ## 6. Questions about a path -/

theorem canonical_eq_ok_iff {cwd : Location} {p real : Path} :
    t.canonical who cwd p = .ok real ↔ ∃ l, t.locate who cwd p = .ok l ∧ pathOf l = real := by
  unfold canonical
  cases t.locate who cwd p <;> simp [Except.map]

theorem stat_eq_ok_iff {cwd : Location} {p : Path} {node : Node} :
    t.stat who cwd p = .ok node ↔ ∃ l, t.locate who cwd p = .ok l ∧ t.find? l = some node := by
  unfold stat
  cases t.locate who cwd p with
  | error e => simp
  | ok l =>
    simp only [Except.ok.injEq, exists_eq_left']
    cases t.find? l <;> simp

theorem isFolder_iff {cwd : Location} {p : Path} :
    t.isFolder who cwd p = true ↔ ∃ mode, t.stat who cwd p = .ok (.folder mode) := by
  unfold isFolder
  split <;> simp_all

theorem isFile_iff {cwd : Location} {p : Path} :
    t.isFile who cwd p = true ↔
      ∃ content modified mode, t.stat who cwd p = .ok (.file content modified mode) := by
  unfold isFile
  split <;> simp_all

/-- What is read is the content of the file that is found. -/
theorem stat_of_read {cwd : Location} {p : Path} {content : Bytes}
    (h : t.read who cwd p = .ok content) :
    ∃ modified mode, t.stat who cwd p = .ok (.file content modified mode) := by
  unfold read at h
  split at h
  · cases h
  · rename_i content' modified mode hstat
    split at h
    · cases h
      exact ⟨modified, mode, hstat⟩
    · cases h
  · split at h <;> cases h
  · cases h

/-- What is located is found, and it is no link. -/
theorem exists_stat_of_locate {p : Path} {l : Location} (h : t.locate who [] p = .ok l) :
    ∃ node, t.stat who [] p = .ok node ∧ ∀ target, node ≠ .link target := by
  obtain ⟨node, hnode, hlink⟩ := (locate_spec h).2
  exact ⟨node, stat_eq_ok_iff.mpr ⟨l, h, hnode⟩, hlink⟩

/-- A path has one location, so what is found at the path stands there. -/
theorem find?_of_stat {cwd : Location} {p : Path} {l : Location} {node : Node}
    (hl : t.locate who cwd p = .ok l) (h : t.stat who cwd p = .ok node) :
    t.find? l = some node := by
  obtain ⟨l', hl', hnode⟩ := stat_eq_ok_iff.mp h
  cases hl.symm.trans hl'
  exact hnode

end Tree

end IsolatedSite.Files
