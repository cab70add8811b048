/-
# Another value for one key

Two environments that differ in the value of one variable, which sets a key, are loaded alike but
for that key: `load_with_other_value`.  Nothing is asked of the file and of the other variables but
that no later one sets the key again, and that the settings are loaded with the first value.

The two raw values differ in one key of one section (`Value.DifferAt`).  Where the variable is read
they begin to differ so, whatever was there.  Each later setting keeps them so, as its path leads to
another section or to another key of the section (`KeyPath.Avoids`), and so does laying them over
the defaults.  What is read of them differs in that key alone.
-/
import IsolatedSite.Proofs.Layering

namespace IsolatedSite

namespace Value

/-! ## 1. Raw values that differ in one key -/

/-- Two tables that hold `v` and `w` under a key, and the same under every other one. -/
structure DifferIn (key : Text) (v w s t : Value) : Prop where
  isTable_left : s.IsTable
  isTable_right : t.IsTable
  left : s.member? key = some v
  right : t.member? key = some w
  others : ∀ k, k ≠ key → s.member? k = t.member? k

/-- Two values that hold `v` and `w` under a key of a section, and are the same elsewhere. -/
structure DifferAt (part key : Text) (v w x y : Value) : Prop where
  parts : ∃ s t, x.member? part = some s ∧ y.member? part = some t ∧ DifferIn key v w s t
  others : ∀ p, p ≠ part → x.member? p = y.member? p

variable {part key : Text} {v w s t x y : Value}

/-- Two values put under a key. -/
theorem differAt_put (x : Value) (part key : Text) (v w : Value) :
    DifferAt part key v w (x.put part key v) (x.put part key w) where
  parts := by
    refine ⟨_, _, by rw [member?_put, if_pos rfl], by rw [member?_put, if_pos rfl], ?_⟩
    refine ⟨isTable_withMember _ _ _, isTable_withMember _ _ _, by simp, by simp, fun k hk => ?_⟩
    rw [member?_withMember, member?_withMember, if_neg hk, if_neg hk]
  others p hp := by rw [member?_put, member?_put, if_neg hp, if_neg hp]

theorem DifferIn.withMember (h : DifferIn key v w s t) {k : Text} (hk : k ≠ key) (new : Value) :
    DifferIn key v w (s.withMember k new) (t.withMember k new) where
  isTable_left := isTable_withMember s k new
  isTable_right := isTable_withMember t k new
  left := by rw [member?_withMember, if_neg hk.symm, h.left]
  right := by rw [member?_withMember, if_neg hk.symm, h.right]
  others k' hk' := by rw [member?_withMember, member?_withMember, h.others k' hk']

theorem DifferAt.withMember (h : DifferAt part key v w x y) {p : Text} (hp : p ≠ part)
    (new : Value) : DifferAt part key v w (x.withMember p new) (y.withMember p new) where
  parts := by
    obtain ⟨s, t, hs, ht, hin⟩ := h.parts
    refine ⟨s, t, ?_, ?_, hin⟩
    · rw [member?_withMember, if_neg hp.symm, hs]
    · rw [member?_withMember, if_neg hp.symm, ht]
  others q hq := by rw [member?_withMember, member?_withMember, h.others q hq]

theorem DifferAt.withPart (h : DifferAt part key v w x y) {s' t' : Value}
    (hin : DifferIn key v w s' t') :
    DifferAt part key v w (x.withMember part s') (y.withMember part t') where
  parts := ⟨s', t', by simp, by simp, hin⟩
  others p hp := by
    rw [member?_withMember, member?_withMember, if_neg hp, if_neg hp, h.others p hp]

/-- What is laid over a value is laid over its member, or leaves it. -/
theorem member?_mergeMembers_eq_or {ms : List (Text × Value)} (h : (ms.map Prod.fst).Nodup)
    (old : Value) (k : Text) : (mergeMembers old ms).member? k =
      ((ms.lookup k).map (merge (old.member? k))).or (old.member? k) := by
  rw [member?_mergeMembers h]
  cases ms.lookup k <;> rfl

/-- Laid over another value they differ in the same key. -/
theorem DifferAt.mergeMembers (h : DifferAt part key v w x y) (hx : x.IsMerged) (hy : y.IsMerged)
    (hv : ¬ v.IsTable) (hw : ¬ w.IsTable) {old : Value}
    (hold : ∃ d, old.member? part = some d ∧ d.IsTable) :
    DifferAt part key v w (mergeMembers old x.members) (mergeMembers old y.members) := by
  obtain ⟨s, t, hs, ht, hin⟩ := h.parts
  obtain ⟨d, hd, hdtable⟩ := hold
  have hmember : ∀ {z : Value}, z.IsMerged → ∀ p, (Value.mergeMembers old z.members).member? p =
      ((z.member? p).map (merge (old.member? p))).or (old.member? p) := fun hz =>
    member?_mergeMembers_eq_or hz.nodup old
  refine ⟨?_, fun p hp => by rw [hmember hx, hmember hy, h.others p hp]⟩
  obtain ⟨ms, o, rfl⟩ := isTable_iff.mp hin.isTable_left
  obtain ⟨ns, o', rfl⟩ := isTable_iff.mp hin.isTable_right
  have hms := member?_mergeMembers_eq_or (hx.member hs).nodup d
  have hns := member?_mergeMembers_eq_or (hy.member ht).nodup d
  refine ⟨Value.mergeMembers d ms, Value.mergeMembers d ns, ?_, ?_,
    isTable_mergeMembers hdtable ms, isTable_mergeMembers hdtable ns, ?_, ?_, fun k hk => ?_⟩
  · rw [hmember hx, hs, hd]
    simp only [merge, Option.map_some, Option.some_or, Option.getD_some]
  · rw [hmember hy, ht, hd]
    simp only [merge, Option.map_some, Option.some_or, Option.getD_some]
  · refine (hms key).trans ?_
    rw [← member?, hin.left, Option.map_some, Option.some_or, merge_of_not_isTable _ hv]
  · refine (hns key).trans ?_
    rw [← member?, hin.right, Option.map_some, Option.some_or, merge_of_not_isTable _ hw]
  · refine (hms k).trans (Eq.trans ?_ (hns k).symm)
    rw [← member?, ← member?, hin.others k hk]

end Value

namespace KeyPath

/-! ## 2. Setting other keys -/

/-- A path that leads to another section or to another key of a section. -/
def Avoids (part key : Text) (path : KeyPath) : Prop :=
  (∃ p more, path = .name p :: more ∧ p ≠ part) ∨
    ∃ k more, path = .name part :: .name k :: more ∧ k ≠ key

/-- What is set elsewhere does not depend on the key. -/
theorem Avoids.set? {part key : Text} {path : KeyPath} (h : Avoids part key path)
    {v w x y new x' : Value} (hdiffer : Value.DifferAt part key v w x y)
    (hset : KeyPath.set? new path (some x) = some x') :
    ∃ y', KeyPath.set? new path (some y) = some y' ∧ Value.DifferAt part key v w x' y' := by
  rcases h with ⟨p, more, rfl, hp⟩ | ⟨k, more, rfl, hk⟩
  · simp only [KeyPath.set?, Option.getD_some, Option.bind_eq_bind, Option.bind_eq_some_iff,
      Option.some.injEq] at hset ⊢
    obtain ⟨u, hu, rfl⟩ := hset
    exact ⟨_, ⟨u, hdiffer.others p hp ▸ hu, rfl⟩, hdiffer.withMember hp u⟩
  · obtain ⟨s, t, hs, ht, hin⟩ := hdiffer.parts
    simp only [KeyPath.set?, Option.getD_some, Option.bind_eq_bind, Option.bind_eq_some_iff,
      Option.some.injEq, hs, ht] at hset ⊢
    obtain ⟨_, ⟨u, hu, rfl⟩, rfl⟩ := hset
    exact ⟨_, ⟨_, ⟨u, hin.others k hk ▸ hu, rfl⟩, rfl⟩, hdiffer.withPart (hin.withMember hk u)⟩

end KeyPath

namespace Settings

theorem setKey_eq_ok {tree tree' : Value} {s : Text × Value} :
    setKey tree s = .ok tree' ↔ (KeyPath.ofKey s.1).set? s.2 (some tree) = some tree' := by
  unfold setKey
  split <;> simp_all

/-- **A run of settings of other keys** keeps the difference. -/
theorem foldlM_setKey_of_differAt {part key : Text} {v w x y x' : Value}
    {sets : List (Text × Value)} (h : Value.DifferAt part key v w x y)
    (hsets : ∀ s ∈ sets, (KeyPath.ofKey s.1).Avoids part key)
    (hrun : sets.foldlM setKey x = .ok x') :
    ∃ y', sets.foldlM setKey y = .ok y' ∧ Value.DifferAt part key v w x' y' := by
  induction sets generalizing x y with
  | nil =>
    obtain rfl := Except.ok.inj hrun
    exact ⟨y, rfl, h⟩
  | cons s sets ih =>
    rw [List.foldlM_cons] at hrun
    obtain ⟨x₁, hstep, hrest⟩ := bind_eq_ok.mp hrun
    obtain ⟨y₁, hset, h₁⟩ := (hsets s List.mem_cons_self).set? h (setKey_eq_ok.mp hstep)
    obtain ⟨y', hrun', h'⟩ := ih h₁ (fun t ht => hsets t (List.mem_cons_of_mem _ ht)) hrest
    refine ⟨y', ?_, h'⟩
    rw [List.foldlM_cons, setKey_eq_ok.mpr hset]
    exact hrun'

/-! ## 3. Reading -/

/-- **Settings are read section by section**, and each section key by key. -/
theorem ofValue_eq_ok_iff_bodies {root : Value} (st : Settings) :
    ofValue root = .ok st ↔ ∃ b : Section → Body, (∀ s : Section, s.body root = .ok (b s)) ∧
      ∀ k : Key, k.readIn (b k.part) = .ok (k.get st) := by
  rw [ofValue_eq_ok_iff_parts]
  constructor
  · rintro ⟨hserver, hserve, hlogging⟩
    have hbodies : ∀ s : Section, ∃ b, s.body root = .ok b := by
      intro s
      cases s with
      | server => exact (bind_eq_ok.mp hserver).imp fun _ h => h.1
      | serve => exact (bind_eq_ok.mp hserve).imp fun _ h => h.1
      | logging => exact (bind_eq_ok.mp hlogging).imp fun _ h => h.1
    choose b hbody using hbodies
    refine ⟨b, hbody, fun k => ?_⟩
    cases hpart : k.part with
    | server => exact (readServer_eq_ok (hbody .server) st).mp hserver k hpart
    | serve => exact (readServe_eq_ok (hbody .serve) st).mp hserve k hpart
    | logging => exact (readLogging_eq_ok (hbody .logging) st).mp hlogging k hpart
  · rintro ⟨b, hbody, hall⟩
    refine ⟨?_, ?_, ?_⟩
    · exact (readServer_eq_ok (hbody .server) st).mpr fun k hk => hk ▸ hall k
    · exact (readServe_eq_ok (hbody .serve) st).mpr fun k hk => hk ▸ hall k
    · exact (readLogging_eq_ok (hbody .logging) st).mpr fun k hk => hk ▸ hall k

theorem Section.key_injective {s s' : Section} (h : s.key = s'.key) : s = s' := by
  revert h
  cases s <;> cases s' <;> decide

/-- A key is known by its section and its name there. -/
theorem Key.eq_of_field_eq {k k' : Key} (hpart : k.part = k'.part) (h : k.field = k'.field) :
    k = k' := by
  revert hpart h
  cases k <;> cases k' <;> decide

/-- The settings with another content for one key. -/
def Key.withContent (k : Key) (c : k.Content) (st : Settings) : Settings :=
  Key.settings (Function.update (fun k' => k'.get st) k c)

theorem Key.get_withContent_self (k : Key) (c : k.Content) (st : Settings) :
    k.get (k.withContent c st) = c := by
  rw [withContent, get_settings, Function.update_self]

theorem Key.get_withContent_of_ne {k k' : Key} (h : k' ≠ k) (c : k.Content) (st : Settings) :
    k'.get (k.withContent c st) = k'.get st := by
  rw [withContent, get_settings, Function.update_of_ne h]

/-- **Raw values that differ in one key** are read as settings that differ in it, if both values
have its type. -/
theorem ofValue_of_differAt (k : Key) {v w x y : Value} {c : k.Content} {st : Settings}
    (h : Value.DifferAt k.part.key k.field.toList v w x y) (hx : ofValue x = .ok st)
    (hw : k.read? (some w) = some c) : ofValue y = .ok (k.withContent c st) := by
  obtain ⟨b, hbody, hall⟩ := (ofValue_eq_ok_iff_bodies st).mp hx
  obtain ⟨s, t, hs, ht, hin⟩ := h.parts
  obtain ⟨ms, o, rfl⟩ := Value.isTable_iff.mp hin.isTable_left
  obtain ⟨ns, o', rfl⟩ := Value.isTable_iff.mp hin.isTable_right
  have hb : b k.part = .byKey ms := by
    have heq := (hbody k.part).symm.trans (by rw [Section.body, hs])
    exact Except.ok.inj heq
  refine (ofValue_eq_ok_iff_bodies _).mpr
    ⟨Function.update b k.part (.byKey ns), fun p => ?_, fun k' => ?_⟩
  · by_cases hp : p = k.part
    · subst hp
      rw [Function.update_self, Section.body, ht]
    · have hsame := h.others p.key fun hkey => hp (Section.key_injective hkey)
      rw [Function.update_of_ne hp, ← hbody p, Section.body, Section.body, hsame]
  · by_cases hk : k' = k
    · subst hk
      rw [Function.update_self, k'.readIn_eq_ok, Key.get_withContent_self, ← hw]
      exact congrArg k'.read? hin.right
    · rw [Key.get_withContent_of_ne hk]
      by_cases hpart : k'.part = k.part
      · have hfield : k'.field.toList ≠ k.field.toList := fun hsame =>
          hk (Key.eq_of_field_eq hpart (String.toList_inj.mp hsame))
        have hread := hall k'
        rw [hpart, hb, k'.readIn_eq_ok] at hread
        rw [hpart, Function.update_self, k'.readIn_eq_ok, ← hread]
        exact congrArg k'.read? (hin.others _ hfield).symm
      · rw [Function.update_of_ne hpart]
        exact hall k'

/-! ## 4. Loading -/

theorem settings_append_cons (before after : List Environment.Variable) {name key : Text}
    (h : Environment.key? name = some key) (value : Text) :
    Environment.settings (before ++ (name, value) :: after) =
      Environment.settings before ++ (key, Environment.valueOf value) ::
        Environment.settings after := by
  simp [Environment.settings, h]

/-- Variables for other keys, named in any case, and variables for none set other keys. -/
theorem avoids_of_lower {vars : List Environment.Variable} {k : Key}
    (h : ∀ v ∈ vars, Environment.key? v.1 = none ∨
      ∃ k' : Key, k' ≠ k ∧ Text.lower v.1 = variableName k') :
    ∀ s ∈ Environment.settings vars, (KeyPath.ofKey s.1).Avoids k.part.key k.field.toList := by
  intro s hs
  obtain ⟨v, hv, hset⟩ := List.mem_filterMap.mp hs
  obtain ⟨key, hkey, rfl⟩ := Option.map_eq_some_iff.mp hset
  rcases h v hv with hnone | ⟨k', hne, hlower⟩
  · rw [hnone] at hkey
    cases hkey
  · obtain ⟨hname, hpath⟩ := key?_of_lower hlower
    obtain rfl := Option.some.inj (hname.symm.trans hkey)
    by_cases hpart : k'.part = k.part
    · refine .inr ⟨k'.field.toList, [], hpart ▸ hpath, fun hfield => hne ?_⟩
      exact Key.eq_of_field_eq hpart (String.toList_inj.mp hfield)
    · exact .inl ⟨k'.part.key, _, hpath, fun hkey => hpart (Section.key_injective hkey)⟩

/-- What is made of settings with one of a key in the middle. -/
theorem effective_of_isLeaf {sets more : List (Text × Value)} {s : Text × Value} {part key : Text}
    (h : IsLeaf s part key) {root : Value} :
    effective (sets ++ s :: more) = .ok root ↔
      ∃ tree tree', sets.foldlM setKey .empty = .ok tree ∧
        more.foldlM setKey (tree.put part key s.2) = .ok tree' ∧
        Value.mergeMembers default.toValue tree'.members = root := by
  have hset : ∀ tree, setKey tree s = .ok (tree.put part key s.2) := setKey_of_isLeaf h
  simp only [effective, collect, List.foldlM_append, List.foldlM_cons, map_eq_ok,
    bind_eq_ok, hset, Except.ok.injEq, exists_eq_left']
  constructor
  · rintro ⟨tree', ⟨tree, htree, hrun⟩, hroot⟩
    exact ⟨tree, tree', htree, hrun, hroot⟩
  · rintro ⟨tree, tree', htree, hrun, hroot⟩
    exact ⟨tree', ⟨tree, htree, hrun⟩, hroot⟩

/-- **Another value for one key**, in a variable that no later one sets again, is loaded as it would
be read, if all is loaded with the first value. -/
theorem load_with_other_value (k : Key) {file : Option SettingsFile}
    {before after : List Environment.Variable} {name v w : Text} {st : Settings} {c : k.Content}
    (hname : Text.lower name = variableName k)
    (hafter : ∀ s ∈ Environment.settings after,
      (KeyPath.ofKey s.1).Avoids k.part.key k.field.toList)
    (hload : load file (before ++ (name, w) :: after) = .ok st)
    (hread : k.read? (some (Environment.valueOf v)) = some c) :
    load file (before ++ (name, v) :: after) = .ok (k.withContent c st) := by
  obtain ⟨sets, hsets⟩ : ∃ sets, setsOf SettingsFormat.read? file = .ok sets := by
    cases file with
    | none => exact ⟨[], rfl⟩
    | some f =>
      obtain ⟨sets, hsets, -⟩ := bind_eq_ok.mp hload
      exact ⟨sets, hsets⟩
  obtain ⟨hkey, hpath⟩ := key?_of_lower hname
  have hleaf : ∀ u, IsLeaf (k.part.key ++ '.' :: k.field.toList, Environment.valueOf u) k.part.key
      k.field.toList := fun u => ⟨hpath, not_isTable_valueOf u⟩
  rw [load, loadWith_eq hsets, settings_append_cons before after hkey,
    ← List.append_assoc] at hload ⊢
  obtain ⟨root, hroot, hst⟩ := bind_eq_ok.mp hload
  obtain ⟨tree, x, htree, hrun, rfl⟩ := (effective_of_isLeaf (hleaf w)).mp hroot
  obtain ⟨y, hrun', hdiffer⟩ := foldlM_setKey_of_differAt
    (Value.differAt_put tree k.part.key k.field.toList _ (Environment.valueOf v)) hafter hrun
  have hmerged : ∀ {u z}, (Environment.settings after).foldlM setKey
      (tree.put k.part.key k.field.toList (Environment.valueOf u)) = .ok z → z.IsMerged :=
    fun hz => isMerged_foldlM (isMerged_setKey (isMerged_foldlM Value.isMerged_empty htree)
      (setKey_of_isLeaf (hleaf _) tree)) hz
  have hlaid := hdiffer.mergeMembers (hmerged hrun) (hmerged hrun') (not_isTable_valueOf w)
    (not_isTable_valueOf v) (hasSections_default k.part)
  rw [(effective_of_isLeaf (hleaf v)).mpr ⟨tree, y, htree, hrun', rfl⟩]
  exact ofValue_of_differAt k hlaid hst hread

end Settings

end IsolatedSite
