/-
# Paths without links

The path that spells a location leads to that location if everything on the way is what it seems:
real folders, and at the end something that is no link (`locate_pathOf`).  Going on from the path
of a location along names gives the path of the location below it (`joinAll_pathOf`).
-/
import IsolatedSite.Proofs.UrlPaths

namespace IsolatedSite

theorem Path.isAbsolute_of_not_mem {p : Path} (h : slash ∉ p) : isAbsolute p = false := by
  cases p with
  | nil => rfl
  | cons b p =>
    have hne : b ≠ slash := fun heq => h (heq ▸ List.mem_cons_self)
    simpa [isAbsolute] using hne

namespace Files

theorem IsName.isAbsolute_eq {name : Bytes} (h : IsName name) : Path.isAbsolute name = false :=
  Path.isAbsolute_of_not_mem h.slash_not_mem

theorem IsName.getLast?_ne {name : Bytes} (h : IsName name) : name.getLast? ≠ some Path.slash :=
  fun hlast => h.slash_not_mem (List.mem_of_getLast? hlast)

namespace Tree

variable {t : Tree} {who : Caller}

/-! ## 1. The path of a location -/

theorem pathOf_concat {l : Location} (hne : l ≠ []) (name : Bytes) :
    pathOf (l ++ [name]) = pathOf l ++ Path.slash :: name := by
  simp [pathOf, hne]

theorem pathOf_ne_nil (l : Location) : pathOf l ≠ [] := by
  cases l with
  | nil => simp [pathOf]
  | cons name l => simp [pathOf_cons]

theorem getLast?_pathOf_concat {l : Location} {name : Bytes} (h : IsName name) :
    (pathOf (l ++ [name])).getLast? ≠ some Path.slash := by
  have hsome : name.getLast?.isSome := by simpa using h.ne_nil
  obtain ⟨b, hb⟩ := Option.isSome_iff_exists.mp hsome
  have hlast : (pathOf (l ++ [name])).getLast? = some b := by
    simp [pathOf, List.getLast?_append, List.getLast?_cons, hb]
  rw [hlast, ← hb]
  exact h.getLast?_ne

/-- The path of what is below a location. -/
theorem join_pathOf {l : Location} (hl : l.IsProper) {name : Bytes} (h : IsName name) :
    Path.join (pathOf l) name = pathOf (l ++ [name]) := by
  rw [Path.join_of_not_isAbsolute _ h.isAbsolute_eq]
  rcases List.eq_nil_or_concat' l with rfl | ⟨above, last, rfl⟩
  · simp [pathOf, Path.gap]
  · have hgap : Path.gap (pathOf (above ++ [last])) = [Path.slash] :=
      if_neg (not_or.mpr ⟨pathOf_ne_nil _, getLast?_pathOf_concat (hl last (by simp))⟩)
    rw [hgap, pathOf_concat (l := above ++ [last]) (by simp), List.append_assoc]
    rfl

/-- **Names lead down from a location.** -/
theorem joinAll_pathOf {l names : Location} (h : Location.IsProper (l ++ names)) :
    Path.joinAll (pathOf l) names = pathOf (l ++ names) := by
  induction names generalizing l with
  | nil => simp [Path.joinAll]
  | cons name names ih =>
    have hl : l.IsProper := fun n hn => h n (by simp [hn])
    have hsplit : l ++ name :: names = (l ++ [name]) ++ names := by simp
    rw [Path.joinAll, Path.join_joinAll, join_pathOf hl (h name (by simp)), hsplit,
      ih (hsplit ▸ h)]

/-! ## 2. Following it -/

theorem filter_splitAtEach_pathOf {l : Location} (h : l.IsProper) (hne : l ≠ []) :
    ((splitAtEach Path.slash (pathOf l)).filter fun x => x ≠ []) = l := by
  cases l with
  | nil => exact absurd rfl hne
  | cons name l =>
    rw [splitAtEach_pathOf h, List.filter_cons_of_neg (by simp)]
    exact List.filter_eq_self.mpr fun n hn => by simpa using (h n hn).ne_nil

/-- The steps of the path of a location are its names. -/
theorem stepsOf_pathOf {l : Location} (h : l.IsProper) (hne : l ≠ []) :
    stepsOf (pathOf l) = l.map .into := by
  have hsteps : l.map stepOf = l.map .into := List.map_congr_left fun name hn => by
    rw [stepOf, if_neg (h name hn).ne_here, if_neg (h name hn).ne_up]
  have hlast : (pathOf l).getLast? ≠ some Path.slash := by
    obtain ⟨above, last, rfl⟩ := (List.eq_nil_or_concat' l).resolve_left hne
    exact getLast?_pathOf_concat (h last (by simp))
  rw [stepsOf, if_neg hlast, filter_splitAtEach_pathOf h hne, hsteps, List.append_nil]

/-- On the way to what is there everything is there. -/
theorem HasFolders.isThere_of_prefix {l above : Location} (h : t.HasFolders l) (hl : t.IsThere l)
    (habove : above <+: l) : t.IsThere above := by
  by_cases heq : above = l
  · exact heq ▸ hl
  · obtain ⟨mode, hmode⟩ := h above habove heq
    exact isThere_of_folder hmode

/-- **Names lead to the location they spell** where nothing on the way is a link.  The induction is
on the names still to follow. -/
theorem found_of_descend {above names : Location} {stop : Stop}
    (h : t.descend who above (names.map .into) = .ok stop)
    (hfolders : t.HasFolders (above ++ names)) (hthere : t.IsThere (above ++ names)) :
    stop = .found (above ++ names) := by
  induction names generalizing above with
  | nil =>
    rw [List.append_nil]
    exact (Except.ok.inj h).symm
  | cons name names ih =>
    have hsplit : above ++ name :: names = (above ++ [name]) ++ names := by simp
    rw [hsplit] at hfolders hthere ⊢
    obtain ⟨n, hn, hlink⟩ := hfolders.isThere_of_prefix hthere (List.prefix_append _ names)
    obtain ⟨mode, -, ⟨hstep | hstep, -⟩ | ⟨hstep, -⟩ | ⟨_, hstep, hinto⟩⟩ := descend_cons h
    · cases hstep
    · cases hstep
    · cases hstep
    · cases hstep
      rcases hinto with ⟨target, htarget, -⟩ | ⟨hnone, -⟩ | ⟨-, -, -, hrest⟩
      · exact absurd (Option.some.inj (hn.symm.trans htarget)) (hlink target)
      · exact absurd (hn.symm.trans hnone) (by simp)
      · exact ih hrest hfolders hthere

/-- **The path of a real location** leads to it, if it leads anywhere. -/
theorem locate_pathOf {l l' : Location} (hproper : l.IsProper) (hfolders : t.HasFolders l)
    (hthere : t.IsThere l) (h : t.locate who [] (pathOf l) = .ok l') : l' = l := by
  obtain ⟨-, hresolve⟩ := resolve_of_locate h
  have hstop : ∀ stop, t.descend who [] (stepsOf (pathOf l)) = .ok stop → stop = .found l := by
    intro stop hstop
    by_cases hne : l = []
    · subst hne
      obtain ⟨-, -, ⟨-, hend⟩ | ⟨hstep, -⟩ | ⟨_, hstep, -⟩⟩ :=
        @descend_cons t who [] .folderOnly [] stop hstop
      · exact (Except.ok.inj hend).symm
      · cases hstep
      · cases hstep
    · rw [stepsOf_pathOf hproper hne] at hstop
      exact found_of_descend hstop hfolders hthere
  rw [ite_self] at hresolve
  rcases resolve_cases hresolve with hend | ⟨folder, target, rest, fewer, hlink, -, -⟩
  · exact Stop.found.inj (hstop _ hend)
  · cases hstop _ hlink

/-- A path that is located is one that the operating system takes. -/
theorem admitted_of_locate {cwd l : Location} {p : Path} (h : t.locate who cwd p = .ok l) :
    (0 : UInt8) ∉ p ∧ p.length ≤ maxPath := by
  unfold locate at h
  split at h
  · rename_i hplace
    unfold place at hplace
    split at hplace
    · cases hplace
    · split at hplace
      · cases hplace
      · split at hplace
        · cases hplace
        · exact ⟨by assumption, Nat.le_of_not_lt (by assumption)⟩
  · cases h
  · cases h

theorem mem_pathOf {l : Location} {name : Bytes} {b : UInt8} (h : name ∈ l) (hb : b ∈ name) :
    b ∈ pathOf l := by
  rw [pathOf, if_neg (List.ne_nil_of_mem h)]
  exact List.mem_flatMap.mpr ⟨name, h, List.mem_cons_of_mem _ hb⟩

/-! ## 3. The name at the end -/

theorem fileName?_pathOf_concat {l : Location} {name : Bytes}
    (h : Location.IsProper (l ++ [name])) : Path.fileName? (pathOf (l ++ [name])) = some name := by
  rw [Path.fileName?, components_pathOf h]
  simp [List.getLast?_cons]

/-- A name is a path, and it is its own last name. -/
theorem fileName?_of_isName {name : Bytes} (h : IsName name) : Path.fileName? name = some name := by
  simp [Path.fileName?, Path.components, h.isAbsolute_eq, h.ne_here,
    splitAtEach_of_not_mem h.slash_not_mem, component?_of_isName h]

end Tree

end Files

end IsolatedSite
