/-
# Settings from layers

What a key of the settings is set to: by the environment, else by the file, else by default
(`Settings.layered`).  `load_layered` says that this is what loading does, key by key, as long as
the sections that the file writes are tables; `load_bareServer` shows what happens otherwise.

Of what reads the notation of a file (`read?` throughout) nothing is assumed: the file may say
whatever table that makes of its content.

The sources are laid over each other as whole tables.  So each of them needs a lemma that says what
it does to one key and that it leaves the others alone: a variable of the environment
(`setKey_of_isLeaf`), all of them (`foldlM_setKey`), and the layer of defaults
(`Value.at?_mergeMembers`).
-/
import IsolatedSite.Proofs.SettingsKeys

namespace IsolatedSite.Settings

/-! ## 1. Setting keys -/

/-- What a key of a section is set to last. -/
def lastSet? (sets : List (Text × Value)) (part key : Text) : Option Value :=
  (sets.reverse.find? fun s => KeyPath.ofKey s.1 = [.name part, .name key]).map Prod.snd

theorem lastSet?_cons (s : Text × Value) (sets : List (Text × Value)) (part key : Text) :
    lastSet? (s :: sets) part key =
      (lastSet? sets part key).or
        (if KeyPath.ofKey s.1 = [.name part, .name key] then some s.2 else none) := by
  unfold lastSet?
  rw [List.reverse_cons, List.find?_append, List.find?_singleton]
  cases sets.reverse.find? fun s => KeyPath.ofKey s.1 = [.name part, .name key] with
  | some t => rfl
  | none => by_cases h : KeyPath.ofKey s.1 = [.name part, .name key] <;> simp [h]

/-- A setting of a key of a section, to anything but a table. -/
structure IsLeaf (s : Text × Value) (part key : Text) : Prop where
  path : KeyPath.ofKey s.1 = [.name part, .name key]
  value : ¬ s.2.IsTable

theorem setKey_of_isLeaf {s : Text × Value} {part key : Text} (h : IsLeaf s part key)
    (tree : Value) : setKey tree s = .ok (tree.put part key s.2) := by
  rw [setKey, h.path, KeyPath.set?_leaf h.value]

/-- Setting keeps raw values merged. -/
theorem isMerged_setKey {tree tree' : Value} {s : Text × Value} (htree : tree.IsMerged)
    (h : setKey tree s = .ok tree') : tree'.IsMerged := by
  unfold setKey at h
  split at h
  · rename_i v hv
    obtain rfl := Except.ok.inj h
    exact KeyPath.isMerged_set? (by rintro w ⟨⟩; exact htree) hv
  · cases h

theorem isMerged_foldlM {sets : List (Text × Value)} {tree tree' : Value} (htree : tree.IsMerged)
    (h : sets.foldlM setKey tree = .ok tree') : tree'.IsMerged := by
  induction sets generalizing tree with
  | nil =>
    obtain rfl := Except.ok.inj h
    exact htree
  | cons s sets ih =>
    rw [List.foldlM_cons] at h
    obtain ⟨next, hnext, h⟩ := bind_eq_ok.mp h
    exact ih (isMerged_setKey htree hnext) h

/-- Whether a section is a table, as far as it is there. -/
def IsTableAt (tree : Value) (part : Text) : Prop := ∀ w, tree.member? part = some w → w.IsTable

/-- **What a run of settings does**: each key has what it was set to last, and else what it had. -/
theorem foldlM_setKey {sets : List (Text × Value)} (h : ∀ s ∈ sets, ∃ part key, IsLeaf s part key)
    (tree : Value) :
    ∃ tree', sets.foldlM setKey tree = .ok tree' ∧
      (∀ part key, tree'.at? part key = (lastSet? sets part key).or (tree.at? part key)) ∧
      ∀ part, (IsTableAt tree part ∨ ∃ s ∈ sets, ∃ key, IsLeaf s part key) →
        IsTableAt tree' part := by
  induction sets generalizing tree with
  | nil => exact ⟨tree, rfl, fun _ _ => rfl, fun part hpart => hpart.resolve_right (by simp)⟩
  | cons s sets ih =>
    obtain ⟨part, key, hs⟩ := h s List.mem_cons_self
    obtain ⟨tree', hrun, hkeys, htables⟩ :=
      ih (fun t ht => h t (List.mem_cons_of_mem _ ht)) (tree.put part key s.2)
    refine ⟨tree', ?_, fun p k => ?_, fun p hp => htables p ?_⟩
    · rw [List.foldlM_cons, setKey_of_isLeaf hs]
      exact hrun
    · have hpath : (p = part ∧ k = key) ↔ KeyPath.ofKey s.1 = [.name p, .name k] := by
        rw [hs.path]
        simp [eq_comm]
      rw [hkeys, lastSet?_cons, Value.at?_put, Option.or_assoc]
      by_cases hpk : p = part ∧ k = key
      · rw [if_pos hpk, if_pos (hpath.mp hpk), Option.some_or]
      · rw [if_neg hpk, if_neg fun h => hpk (hpath.mpr h), Option.none_or]
    · by_cases hpart : p = part
      · subst hpart
        left
        intro w hw
        rw [Value.member?_put, if_pos rfl] at hw
        obtain rfl := Option.some.inj hw
        exact Value.isTable_withMember _ _ _
      · rcases hp with hp | ⟨t, ht, k, htk⟩
        · left
          intro w hw
          rw [Value.member?_put, if_neg hpart] at hw
          exact hp w hw
        · rcases List.mem_cons.mp ht with rfl | ht
          · have hsame := hs.path.symm.trans htk.path
            simp only [List.cons.injEq, KeyStep.name.injEq] at hsame
            exact absurd hsame.1.symm hpart
          · exact .inr ⟨t, ht, k, htk⟩

/-! ## 2. The environment -/

/-- An environment that sets nothing but keys of sections. -/
def SetsKeysOnly (vars : List Environment.Variable) : Prop :=
  ∀ s ∈ Environment.settings vars, ∃ part key, KeyPath.ofKey s.1 = [.name part, .name key]

/-- No variable makes a table. -/
theorem not_isTable_valueOf (t : Text) : ¬ (Environment.valueOf t).IsTable := by
  unfold Environment.valueOf
  dsimp only
  split
  · exact id
  · split
    · exact id
    · split <;> exact id

theorem not_isTable_of_mem_settings {vars : List Environment.Variable} {s : Text × Value}
    (h : s ∈ Environment.settings vars) : ¬ s.2.IsTable := by
  obtain ⟨v, -, hv⟩ := List.mem_filterMap.mp h
  obtain ⟨key, -, rfl⟩ := Option.map_eq_some_iff.mp hv
  exact not_isTable_valueOf v.2

/-- The name of the variable that sets a key, in small letters: section and key with two underscores
between them, behind what the names of all such variables begin with. -/
def variableName (k : Key) : Text :=
  Environment.mark ++ k.part.key ++ "__".toList ++ k.field.toList

theorem key?_of_lower {name : Text} {k : Key} (h : Text.lower name = variableName k) :
    Environment.key? name = some (k.part.key ++ '.' :: k.field.toList) ∧
      KeyPath.ofKey (k.part.key ++ '.' :: k.field.toList) =
        [.name k.part.key, .name k.field.toList] := by
  rw [Environment.key?, h]
  cases k <;> exact ⟨by decide, by decide⟩

/-- Variables that are named so, in any case, set nothing but keys of sections. -/
theorem setsKeysOnly_of_lower {vars : List Environment.Variable}
    (h : ∀ v ∈ vars, Environment.key? v.1 = none ∨ ∃ k, Text.lower v.1 = variableName k) :
    SetsKeysOnly vars := by
  intro s hs
  obtain ⟨v, hv, hkey⟩ := List.mem_filterMap.mp hs
  rcases h v hv with hnone | ⟨k, hlower⟩
  · rw [hnone] at hkey
    cases hkey
  · obtain ⟨hname, hpath⟩ := key?_of_lower hlower
    rw [hname] at hkey
    obtain rfl := Option.some.inj hkey
    exact ⟨_, _, hpath⟩

/-! ## 3. Layers -/

variable {read? : SettingsFormat.Reader}

/-- What a settings file sets, if there is one. -/
def setsOf (read? : SettingsFormat.Reader) :
    Option SettingsFile → Except Fault (List (Text × Value))
  | some f => ofFile read? f
  | none => .ok []

/-- The raw value that a settings file makes. -/
def fileTree (read? : SettingsFormat.Reader) (file : Option SettingsFile) : Except Fault Value := do
  collect (← setsOf read? file)

/-- **What the layers set a key to**: what the environment says, else what the file says, else
what holds by default.  A table without members, in the file, says nothing where there is a
default. -/
def layered (tree : Value) (vars : List Environment.Variable) (k : Key) : Option Value :=
  (lastSet? (Environment.settings vars) k.part.key k.field.toList).or
    (Value.layOver (k.of default.toValue) (k.of tree))

theorem hasSections_default : HasSections default.toValue := by
  intro s
  cases s <;> exact ⟨_, rfl, trivial⟩

theorem not_isTable_default (k : Key) : ∀ w ∈ k.of default.toValue, ¬ w.IsTable := by
  intro w hw
  cases k <;> cases hw <;> exact id

theorem effective_append {sets more : List (Text × Value)} {tree : Value}
    (h : collect sets = .ok tree) :
    effective (sets ++ more) =
      (more.foldlM setKey tree).map fun v => Value.mergeMembers default.toValue v.members := by
  rw [effective, collect, List.foldlM_append]
  rw [collect] at h
  rw [h]
  rfl

theorem loadWith_eq_bind (file : Option SettingsFile) (vars : List Environment.Variable) :
    loadWith read? file vars =
      (do ofValue (← effective ((← setsOf read? file) ++ Environment.settings vars))) := by
  cases file <;> rfl

theorem loadWith_eq {file : Option SettingsFile} {vars : List Environment.Variable}
    {sets : List (Text × Value)} (h : setsOf read? file = .ok sets) :
    loadWith read? file vars = (do ofValue (← effective (sets ++ Environment.settings vars))) := by
  rw [loadWith_eq_bind, h]
  rfl

theorem collect_append_eq_error {sets more : List (Text × Value)} {fault : Fault}
    (h : collect sets = .error fault) : collect (sets ++ more) = .error fault := by
  rw [collect] at h
  rw [collect, List.foldlM_append, h]
  rfl

/-- **What keeps a file from making a raw value** keeps it from being loaded, whatever the
environment says. -/
theorem loadWith_of_fileTree_eq_error {file : Option SettingsFile} {fault : Fault}
    (h : fileTree read? file = .error fault) (vars : List Environment.Variable) :
    loadWith read? file vars = .error fault := by
  rw [loadWith_eq_bind]
  cases hsets : setsOf read? file with
  | error other =>
    rw [fileTree, hsets] at h
    obtain rfl : other = fault := Except.error.inj h
    rfl
  | ok sets =>
    have hcollect : collect sets = .error fault := by
      rw [fileTree, hsets] at h
      exact h
    have heffective : effective (sets ++ Environment.settings vars) = .error fault := by
      rw [effective, collect_append_eq_error hcollect]
      rfl
    change (effective (sets ++ Environment.settings vars)) >>= ofValue = .error fault
    rw [heffective]
    rfl

/-- The layers reach every key, and leave the sections tables. -/
theorem exists_effective {sets : List (Text × Value)} {tree : Value}
    {vars : List Environment.Variable} (htree : collect sets = .ok tree) (hvars : SetsKeysOnly vars)
    (hparts : ∀ s : Section, IsTableAt tree s.key ∨
      ∃ t ∈ Environment.settings vars, ∃ key, KeyPath.ofKey t.1 = [.name s.key, .name key]) :
    ∃ root, effective (sets ++ Environment.settings vars) = .ok root ∧ HasSections root ∧
      ∀ k : Key, k.of root = layered tree vars k := by
  have hleaves : ∀ t ∈ Environment.settings vars, ∃ part key, IsLeaf t part key := by
    intro t ht
    obtain ⟨part, key, hpath⟩ := hvars t ht
    exact ⟨part, key, hpath, not_isTable_of_mem_settings ht⟩
  obtain ⟨tree', hrun, hkeys, htables⟩ := foldlM_setKey hleaves tree
  have hmerged : tree'.IsMerged :=
    isMerged_foldlM (isMerged_foldlM Value.isMerged_empty htree) hrun
  have hpart : ∀ s : Section, IsTableAt tree' s.key := by
    intro s
    refine htables s.key ((hparts s).imp_right ?_)
    rintro ⟨t, ht, key, hpath⟩
    exact ⟨t, ht, key, hpath, not_isTable_of_mem_settings ht⟩
  refine ⟨Value.mergeMembers default.toValue tree'.members, ?_, fun s => ?_, fun k => ?_⟩
  · rw [effective_append htree, hrun]
    rfl
  · exact (Value.at?_mergeMembers hmerged (hasSections_default s) (hpart s)).1
  · have hlaid := (Value.at?_mergeMembers hmerged (hasSections_default k.part) (hpart k.part)).2
      k.field.toList (not_isTable_default k)
    rw [Key.of, hlaid, hkeys, layered, Key.of, Key.of]
    cases hset : lastSet? (Environment.settings vars) k.part.key k.field.toList with
    | none => rw [Option.none_or, Option.none_or]
    | some v =>
      have hv : ¬ v.IsTable := by
        obtain ⟨t, ht, rfl⟩ := Option.map_eq_some_iff.mp hset
        exact not_isTable_of_mem_settings (List.mem_reverse.mp (List.mem_of_find?_eq_some ht))
      rw [Option.some_or, Option.some_or, Value.layOver_of_not_isTable _ hv]

/-! ## 4. Files -/

/-- The members of a document; anything but a table has none. -/
def membersOf : Document → List (Text × Document)
  | .table ms => ms
  | _ => []

/-- What a document says under a key of a section. -/
def documentAt? (d : Document) (part key : Text) : Option Document :=
  ((membersOf d).lookup part).bind fun e => (membersOf e).lookup key

/-- A document whose keys are names in small letters, each of which stands in its table once.  A
key at the top could spell a path otherwise. -/
structure HasPlainKeys (d : Document) : Prop where
  distinct : ((membersOf d).map Prod.fst).Nodup
  small : ∀ m ∈ membersOf d, Text.lower m.1 = m.1
  names : ∀ m ∈ membersOf d, KeyPath.ofKey m.1 = [.name m.1]
  innerDistinct : ∀ m ∈ membersOf d, ((membersOf m.2).map Prod.fst).Nodup
  innerSmall : ∀ m ∈ membersOf d, ∀ n ∈ membersOf m.2, Text.lower n.1 = n.1

instance (d : Document) : Decidable (HasPlainKeys d) :=
  decidable_of_iff
    (((membersOf d).map Prod.fst).Nodup ∧ (∀ m ∈ membersOf d, Text.lower m.1 = m.1) ∧
      (∀ m ∈ membersOf d, KeyPath.ofKey m.1 = [.name m.1]) ∧
      (∀ m ∈ membersOf d, ((membersOf m.2).map Prod.fst).Nodup) ∧
      ∀ m ∈ membersOf d, ∀ n ∈ membersOf m.2, Text.lower n.1 = n.1)
    ⟨fun ⟨h₁, h₂, h₃, h₄, h₅⟩ => ⟨h₁, h₂, h₃, h₄, h₅⟩,
      fun h => ⟨h.distinct, h.small, h.names, h.innerDistinct, h.innerSmall⟩⟩

theorem ofMembers_eq_map (o : Option Text) {ms : List (Text × Document)}
    (h : ∀ m ∈ ms, Text.lower m.1 = m.1) :
    Value.ofMembers o ms = ms.map fun m => (m.1, Value.ofDocument o m.2) := by
  induction ms with
  | nil => rw [Value.ofMembers]; rfl
  | cons m ms ih =>
    obtain ⟨key, d⟩ := m
    rw [Value.ofMembers, h (key, d) List.mem_cons_self,
      ih fun m hm => h m (List.mem_cons_of_mem _ hm)]
    rfl

/-- Looking up in the values of a document is looking up in the document. -/
theorem lookup_ofMembers (o : Option Text) {ms : List (Text × Document)}
    (h : ∀ m ∈ ms, Text.lower m.1 = m.1) (key : Text) :
    (Value.ofMembers o ms).lookup key = (ms.lookup key).map (Value.ofDocument o) := by
  rw [ofMembers_eq_map o h, lookup_map]

theorem nodup_ofMembers (o : Option Text) {ms : List (Text × Document)}
    (h : ∀ m ∈ ms, Text.lower m.1 = m.1) (hkeys : (ms.map Prod.fst).Nodup) :
    ((Value.ofMembers o ms).map Prod.fst).Nodup := by
  rw [ofMembers_eq_map o h, List.map_map]
  exact hkeys

/-- Keys that are names are members that are laid over what is there. -/
theorem foldlM_setKey_of_names {sets : List (Text × Value)}
    (h : ∀ s ∈ sets, KeyPath.ofKey s.1 = [.name s.1]) (tree : Value) :
    sets.foldlM setKey tree = .ok (Value.mergeMembers tree sets) := by
  induction sets generalizing tree with
  | nil => rw [Value.mergeMembers]; rfl
  | cons s sets ih =>
    obtain ⟨key, v⟩ := s
    have hset : setKey tree (key, v) =
        .ok (tree.withMember key (Value.merge (tree.member? key) v)) := by
      rw [setKey, h (key, v) List.mem_cons_self]
      rfl
    rw [List.foldlM_cons, hset, Value.mergeMembers]
    exact ih (fun t ht => h t (List.mem_cons_of_mem _ ht)) _

/-- The raw value of a document: it is written as it is, but for the keys of a table that stand in
it twice. -/
def rawOf (o : Option Text) (d : Document) : Value := Value.merge none (Value.ofDocument o d)

theorem member?_rawOf {o : Option Text} {d : Document}
    (hkeys : ((membersOf d).map Prod.fst).Nodup) (hsmall : ∀ n ∈ membersOf d, Text.lower n.1 = n.1)
    (key : Text) : (rawOf o d).member? key = ((membersOf d).lookup key).map (rawOf o) := by
  cases d with
  | table ms =>
    rw [membersOf] at hkeys hsmall ⊢
    rw [rawOf, Value.ofDocument, Value.merge, Option.getD_none,
      Value.member?_mergeMembers (nodup_ofMembers o hsmall hkeys), lookup_ofMembers o hsmall]
    cases ms.lookup key <;> rfl
  | _ => simp [rawOf, Value.ofDocument, Value.merge, membersOf, Value.member?, Value.members]

/-- **What a plain file sets a key to** is what its document says under it. -/
theorem fileTree_of_hasPlainKeys {f : SettingsFile} {ms : List (Text × Document)}
    (hread : read? f.format f.content = some (.table ms)) (h : HasPlainKeys (.table ms)) :
    ∃ tree, fileTree read? (some f) = .ok tree ∧ ∀ part,
      tree.member? part = ((membersOf (.table ms)).lookup part).map (rawOf (some f.name)) ∧
      ∀ key, tree.at? part key = (documentAt? (.table ms) part key).map (rawOf (some f.name)) := by
  have hsets : setsOf read? (some f) = .ok (Value.ofMembers (some f.name) ms) := by
    rw [setsOf, ofFile, hread]
  have hnames : ∀ s ∈ Value.ofMembers (some f.name) ms, KeyPath.ofKey s.1 = [.name s.1] := by
    have hsmall : ∀ m ∈ ms, Text.lower m.1 = m.1 := h.small
    rw [ofMembers_eq_map _ hsmall]
    intro s hs
    obtain ⟨m, hm, rfl⟩ := List.mem_map.mp hs
    exact h.names m hm
  have htree : fileTree read? (some f) = .ok (rawOf (some f.name) (.table ms)) := by
    rw [fileTree, hsets]
    refine (foldlM_setKey_of_names hnames .empty).trans ?_
    rw [rawOf, Value.ofDocument, Value.merge, Option.getD_none]
  have hmember := member?_rawOf (o := some f.name) h.distinct h.small
  refine ⟨_, htree, fun part => ⟨hmember part, fun key => ?_⟩⟩
  rw [Value.at?, hmember, documentAt?]
  cases hat : (membersOf (.table ms)).lookup part with
  | none => rfl
  | some e =>
    have he := mem_of_lookup hat
    exact member?_rawOf (h.innerDistinct _ he) (h.innerSmall _ he) key

/-! ## 5. Loading -/

/-- How a settings file that makes a raw value, and an environment, are loaded. -/
structure LoadsInLayers (read? : SettingsFormat.Reader) (file : Option SettingsFile)
    (vars : List Environment.Variable) (tree : Value) : Prop where
  /-- The raw value of every key is that of the layers. -/
  raw : ∃ sets root, setsOf read? file = .ok sets ∧
    effective (sets ++ Environment.settings vars) = .ok root ∧
    ∀ k : Key, k.of root = layered tree vars k
  /-- Loading succeeds exactly if every key can be read. -/
  succeeds : (∃ st, loadWith read? file vars = .ok st) ↔
    ∀ k : Key, ∃ c, k.read? (layered tree vars k) = some c
  /-- Each key is read from its own raw value. -/
  fields : ∀ st, loadWith read? file vars = .ok st ↔
    ∀ k : Key, k.read? (layered tree vars k) = some (k.get st)

/-- **Settings are layered.** -/
theorem loadsInLayers {file : Option SettingsFile} {vars : List Environment.Variable} {tree : Value}
    (htree : fileTree read? file = .ok tree) (hvars : SetsKeysOnly vars)
    (hparts : ∀ s : Section, IsTableAt tree s.key ∨
      ∃ t ∈ Environment.settings vars, ∃ key, KeyPath.ofKey t.1 = [.name s.key, .name key]) :
    LoadsInLayers read? file vars tree := by
  obtain ⟨sets, hsets, hcollect⟩ := bind_eq_ok.mp htree
  obtain ⟨root, hroot, hsections, hkeys⟩ := exists_effective hcollect hvars hparts
  have hload : loadWith read? file vars = ofValue root := by
    rw [loadWith_eq hsets, hroot]
    rfl
  refine ⟨⟨sets, root, hsets, hroot, hkeys⟩, ?_, fun st => ?_⟩
  · simp only [hload, exists_ofValue_eq_ok hsections, hkeys]
  · rw [hload, ofValue_eq_ok hsections]
    simp only [hkeys]

/-- Every default can be read, and is read as what it is. -/
theorem read?_default (k : Key) : k.read? (k.of default.toValue) = some (k.get default) := by
  cases k <;> rfl

/-- A key that nothing sets has its default. -/
theorem layered_of_unset {tree : Value} {vars : List Environment.Variable} {k : Key}
    (htree : k.of tree = none) (hvars : Environment.settings vars = []) :
    layered tree vars k = k.of default.toValue := by
  rw [layered, htree, hvars]
  rfl

/-- The defaults are what is loaded from nothing. -/
theorem loadWith_none {vars : List Environment.Variable} (h : Environment.settings vars = []) :
    loadWith read? none vars = .ok default := by
  have hlayers : LoadsInLayers read? none vars .empty := by
    refine loadsInLayers rfl (by simp [SetsKeysOnly, h]) fun s => .inl fun w hw => ?_
    cases hw
  rw [hlayers.fields default]
  intro k
  rw [layered_of_unset rfl h]
  exact read?_default k

/-- **Loading in layers.**

Every file and every environment that sets keys of sections only are loaded in layers, if each
section that the file writes is a table, or the environment sets a key of it.  What a plain file
sets a key to is what its document says under it.  A file that makes no raw value is not loaded.
With nothing set, the defaults are loaded.

All of it holds whatever reads the notation of the file. -/
theorem load_layered :
    (∀ (read? : SettingsFormat.Reader) file vars tree, fileTree read? file = .ok tree →
      SetsKeysOnly vars →
      (∀ s : Section, IsTableAt tree s.key ∨
        ∃ t ∈ Environment.settings vars, ∃ key, KeyPath.ofKey t.1 = [.name s.key, .name key]) →
      LoadsInLayers read? file vars tree) ∧
    (∀ (read? : SettingsFormat.Reader) f ms, read? f.format f.content = some (.table ms) →
      HasPlainKeys (.table ms) → ∃ tree, fileTree read? (some f) = .ok tree ∧ ∀ part,
        tree.member? part = ((membersOf (.table ms)).lookup part).map (rawOf (some f.name)) ∧
        ∀ key, tree.at? part key =
          (documentAt? (.table ms) part key).map (rawOf (some f.name))) ∧
    (∀ (read? : SettingsFormat.Reader) file fault, fileTree read? file = .error fault →
      ∀ vars, loadWith read? file vars = .error fault) ∧
    ∀ (read? : SettingsFormat.Reader) vars, Environment.settings vars = [] →
      loadWith read? none vars = .ok default :=
  ⟨fun _ _ _ _ => loadsInLayers, fun _ _ _ => fileTree_of_hasPlainKeys,
    fun _ _ _ => loadWith_of_fileTree_eq_error, fun _ _ => loadWith_none⟩

/-- A file with a port that is none, and the folder to serve. -/
def overridden : SettingsFile where
  name := "coi-serve.json".toList
  format := .json
  content :=
    "\x7b\"server\":\x7b\"port\":\"bad\"\x7d,\"serve\":\x7b\"root\":\"public\"\x7d\x7d".toList

/-- What the file says. -/
def overriddenDocument? : Option Document := overridden.format.read? overridden.content

/-- An environment that sets the port. -/
def portVariable : List Environment.Variable := [("COI_SERVE_SERVER__PORT".toList, "9000".toList)]

/-- What is loaded from both. -/
def overriddenSettings : Settings where
  server := ⟨"0.0.0.0".toList, 9000, none, "coi-serve/0.1.0".toList⟩
  serve := ⟨"public".toList, ["index.html".toList, "index.htm".toList], true⟩
  logging := default.logging

/-- A value of the wrong type in the file is no fault, if the environment has a good one. -/
theorem load_overridden : load (some overridden) portVariable = .ok overriddenSettings := by
  obtain ⟨ms, hread⟩ : ∃ ms, overriddenDocument? = some (.table ms) := by
    have hlength : overriddenDocument?.map (fun d => (membersOf d).length) = some 2 := by
      decide +kernel
    obtain ⟨d, hd, htwo⟩ := Option.map_eq_some_iff.mp hlength
    cases d with
    | table ms => exact ⟨ms, hd⟩
    | _ => cases htwo
  have hplain : HasPlainKeys (.table ms) := by
    have hall : overriddenDocument?.all (fun d => decide (HasPlainKeys d)) = true := by
      decide +kernel
    rw [hread] at hall
    exact of_decide_eq_true hall
  obtain ⟨tree, htree, hkeys⟩ := load_layered.2.1 SettingsFormat.read? overridden ms hread hplain
  have hlayers : LoadsInLayers SettingsFormat.read? (some overridden) portVariable tree := by
    refine load_layered.1 _ _ _ tree htree ?_ fun s => .inl fun w hw => ?_
    · refine setsKeysOnly_of_lower fun v hv => .inr ⟨.port, ?_⟩
      obtain rfl := List.mem_singleton.mp hv
      decide
    · have htables : (overriddenDocument?.bind fun d =>
          ((membersOf d).lookup s.key).map (rawOf (some overridden.name))).all
            (fun w => decide w.IsTable) = true := by
        cases s <;> decide +kernel
      rw [hread, Option.bind_some, ← (hkeys s.key).1, hw] at htables
      exact of_decide_eq_true htables
  refine (hlayers.fields _).mpr fun k => ?_
  have hread? : (overriddenDocument?.bind fun d =>
      k.read? ((lastSet? (Environment.settings portVariable) k.part.key k.field.toList).or
        (Value.layOver (k.of default.toValue)
          ((documentAt? d k.part.key k.field.toList).map (rawOf (some overridden.name)))))) =
      some (k.get overriddenSettings) := by
    cases k <;> decide +kernel
  rw [hread, Option.bind_some, ← (hkeys _).2] at hread?
  exact hread?

/-- A file that has a number in the place of a section. -/
def bareServer : SettingsFile where
  name := "other.json".toList
  format := .json
  content := "\x7b\"server\": 5\x7d".toList

/-- **A section that is no table** is no section: every key has its default, and can be read, and
still nothing is loaded. -/
theorem load_bareServer :
    (∃ tree, fileTree SettingsFormat.read? (some bareServer) = .ok tree ∧ ∀ k : Key,
      layered tree [] k = k.of default.toValue ∧
        k.read? (layered tree [] k) = some (k.get default)) ∧
    ∃ fault, load (some bareServer) [] = .error fault := by
  constructor
  · have hsome : (fileTree SettingsFormat.read? (some bareServer)).toOption.isSome = true := by
      decide +kernel
    obtain ⟨tree, htree⟩ := Option.isSome_iff_exists.mp hsome
    refine ⟨tree, toOption_eq_some.mp htree, fun k => ?_⟩
    have hunset :
        ((fileTree SettingsFormat.read? (some bareServer)).toOption.bind k.of).isNone = true := by
      cases k <;> decide +kernel
    rw [htree, Option.bind_some, Option.isNone_iff_eq_none] at hunset
    rw [layered_of_unset hunset rfl]
    exact ⟨rfl, read?_default k⟩
  · have hnone : (load (some bareServer) []).toOption = none := by decide +kernel
    cases hload : load (some bareServer) [] with
    | error fault => exact ⟨fault, rfl⟩
    | ok st =>
      rw [hload] at hnone
      cases hnone

end IsolatedSite.Settings
