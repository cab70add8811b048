/-
# How raw values grow together

What a value holds after another one was laid over it, member by member.  Values that came about by
setting and merging are merged themselves (`Value.IsMerged`): no key stands in a table twice, and no
table was written anywhere.  Of such a table every member is laid over the member with the same key,
and over no other (`member?_mergeMembers`), and laid over anything but a table it takes its place
(`merge_eq_layOver`).
-/
import IsolatedSite.Layers.KeyPath
import IsolatedSite.Proofs.Members

namespace IsolatedSite

namespace Value

/-! ## 1. Members of values -/

/-- Whether a value is a table. -/
def IsTable : Value → Prop
  | .table .. => True
  | _ => False

instance : DecidablePred IsTable
  | .table .. => isTrue trivial
  | .null _ | .bool .. | .int .. | .float .. | .text .. | .list .. => isFalse id

theorem isTable_iff {v : Value} : v.IsTable ↔ ∃ ms o, v = .table ms o := by
  cases v <;> simp [IsTable]

@[simp] theorem isTable_withMember (old : Value) (key : Text) (v : Value) :
    (old.withMember key v).IsTable := by
  cases old <;> trivial

theorem members_of_not_isTable {v : Value} (h : ¬ v.IsTable) : v.members = [] := by
  cases v <;> first | rfl | exact absurd trivial h

theorem withMember_of_not_isTable {v : Value} (h : ¬ v.IsTable) (key : Text) (w : Value) :
    v.withMember key w = .table [(key, w)] none := by
  cases v <;> first | rfl | exact absurd trivial h

@[simp] theorem member?_empty (k : Text) : empty.member? k = none := rfl

theorem member?_of_not_isTable {v : Value} (h : ¬ v.IsTable) (k : Text) : v.member? k = none := by
  rw [member?, members_of_not_isTable h]
  rfl

/-- A member that is put in stands under its key, and changes no other. -/
@[simp] theorem member?_withMember (old : Value) (key k : Text) (v : Value) :
    (old.withMember key v).member? k = if k = key then some v else old.member? k := by
  by_cases h : old.IsTable
  · obtain ⟨ms, o, rfl⟩ := isTable_iff.mp h
    exact lookup_putMember key k v ms
  · rw [withMember_of_not_isTable h, member?_of_not_isTable h]
    exact lookup_putMember key k v []

/-- What stands under a key of a section. -/
def at? (v : Value) (part key : Text) : Option Value :=
  (v.member? part).bind fun w => w.member? key

/-- The value with another one put under a key of a section. -/
def put (v : Value) (part key : Text) (new : Value) : Value :=
  v.withMember part (((v.member? part).getD empty).withMember key new)

theorem member?_put (v : Value) (part key : Text) (new : Value) (p : Text) :
    (v.put part key new).member? p =
      if p = part then some (((v.member? part).getD empty).withMember key new)
      else v.member? p := member?_withMember _ _ _ _

/-- What is put under a key changes nothing under another one, of its section or not. -/
theorem at?_put (v : Value) (part key : Text) (new : Value) (p k : Text) :
    (v.put part key new).at? p k = if p = part ∧ k = key then some new else v.at? p k := by
  rw [at?, member?_put]
  by_cases hp : p = part
  · subst hp
    rw [if_pos rfl, Option.bind_some, member?_withMember]
    by_cases hk : k = key
    · rw [if_pos hk, if_pos ⟨rfl, hk⟩]
    · rw [if_neg hk, if_neg fun h => hk h.2, at?]
      cases v.member? p <;> rfl
  · rw [if_neg hp, if_neg fun h => hp h.1, at?]

/-! ## 2. Merged values -/

/-- A value that came about by merging: no key stands in a table twice. -/
inductive IsMerged : Value → Prop
  | table {ms : List (Text × Value)} (hkeys : (ms.map Prod.fst).Nodup)
      (hms : ∀ m ∈ ms, IsMerged m.2) : IsMerged (.table ms none)
  | other {v : Value} (h : ¬ v.IsTable) : IsMerged v

theorem isMerged_empty : empty.IsMerged := .table List.nodup_nil (by simp)

theorem IsMerged.nodup {v : Value} (h : v.IsMerged) : (v.members.map Prod.fst).Nodup := by
  cases h with
  | table hkeys _ => exact hkeys
  | other h => simp [members_of_not_isTable h]

theorem IsMerged.member {v w : Value} {key : Text} (h : v.IsMerged) (hw : v.member? key = some w) :
    w.IsMerged := by
  cases h with
  | table _ hms => exact hms _ (mem_of_lookup hw)
  | other h => simp [member?_of_not_isTable h] at hw

theorem IsMerged.withMember {old v : Value} (h : old.IsMerged) (hv : v.IsMerged) (key : Text) :
    (old.withMember key v).IsMerged := by
  cases h with
  | table hkeys hms =>
    refine .table (nodup_putMember hkeys) fun m hm => ?_
    rcases mem_putMember hm with rfl | hm
    · exact hv
    · exact hms m hm
  | other h =>
    rw [withMember_of_not_isTable h]
    exact .table (by simp) (by simpa using hv)

mutual

/-- **Laying over keeps values merged**, whatever is laid over. -/
theorem isMerged_merge {old : Option Value} (h : ∀ v ∈ old, v.IsMerged) :
    (v : Value) → (merge old v).IsMerged
  | .table ms _ => by
    rw [merge]
    refine isMerged_mergeMembers ?_ ms
    cases old with
    | none => exact isMerged_empty
    | some v => exact h v rfl
  | .null _ | .bool _ _ | .int _ _ | .float _ _ | .text _ _ | .list _ _ =>
    .other (by simp [merge, IsTable])

theorem isMerged_mergeMembers {old : Value} (h : old.IsMerged) :
    (ms : List (Text × Value)) → (mergeMembers old ms).IsMerged
  | [] => by rwa [mergeMembers]
  | (key, v) :: ms => by
    rw [mergeMembers]
    exact isMerged_mergeMembers
      (h.withMember (isMerged_merge (fun w hw => h.member hw) v) key) ms

end

/-! ## 3. Laying over -/

theorem merge_of_not_isTable (old : Option Value) {v : Value} (h : ¬ v.IsTable) :
    merge old v = v := by
  cases v <;> first | exact absurd trivial h | simp [merge]

theorem isTable_mergeMembers {old : Value} (h : old.IsTable) (ms : List (Text × Value)) :
    (mergeMembers old ms).IsTable := by
  induction ms generalizing old with
  | nil => rwa [mergeMembers]
  | cons m ms ih =>
    rw [mergeMembers]
    exact ih (isTable_withMember _ _ _)

/-- **Each member is laid over the member with its key**, and changes no other. -/
theorem member?_mergeMembers {ms : List (Text × Value)} (h : (ms.map Prod.fst).Nodup)
    (old : Value) (k : Text) :
    (mergeMembers old ms).member? k =
      match ms.lookup k with
      | some v => some (merge (old.member? k) v)
      | none => old.member? k := by
  induction ms generalizing old with
  | nil => rw [mergeMembers]; rfl
  | cons m ms ih =>
    obtain ⟨key, v⟩ := m
    rw [List.map_cons, List.nodup_cons] at h
    obtain ⟨hkey, hms⟩ := h
    rw [mergeMembers, ih hms]
    by_cases hk : k = key
    · subst hk
      rw [lookup_of_not_mem hkey, List.lookup_cons_self, member?_withMember, if_pos rfl]
    · rw [lookup_cons_of_ne hk, member?_withMember, if_neg hk]

/-- Members that are merged and new are added as they are. -/
theorem mergeMembers_eq_append {before ms : List (Text × Value)}
    (hkeys : ((before ++ ms).map Prod.fst).Nodup)
    (hms : ∀ m ∈ ms, merge none m.2 = m.2) :
    mergeMembers (.table before none) ms = .table (before ++ ms) none := by
  induction ms generalizing before with
  | nil => rw [mergeMembers, List.append_nil]
  | cons m ms ih =>
    obtain ⟨key, v⟩ := m
    have hnew : key ∉ before.map Prod.fst := by
      rw [List.map_append, List.map_cons, List.nodup_append] at hkeys
      exact fun hmem => hkeys.2.2 key hmem key List.mem_cons_self rfl
    have habsent : (Value.table before none).member? key = none := lookup_of_not_mem hnew
    have hput : (Value.table before none).withMember key v = .table (before ++ [(key, v)]) none := by
      rw [withMember, putMember_of_not_mem hnew]
    rw [mergeMembers, habsent, hms (key, v) List.mem_cons_self, hput,
      ih (by simpa using hkeys) fun m hm => hms m (List.mem_cons_of_mem _ hm)]
    simp

/-- A merged value stays as it is where nothing was. -/
theorem merge_none {v : Value} (h : v.IsMerged) : merge none v = v := by
  induction h with
  | table hkeys _ ih =>
    rw [merge]
    exact @mergeMembers_eq_append [] _ hkeys ih
  | other h => exact merge_of_not_isTable none h

/-- What a new value makes of an old one, if each is there: it takes its place, and only a table
without members gives way to it. -/
def layOver (old : Option Value) : Option Value → Option Value
  | some (.table [] o) => old.or (some (.table [] o))
  | some v => some v
  | none => old

theorem layOver_of_not_isTable (old : Option Value) {v : Value} (h : ¬ v.IsTable) :
    layOver old (some v) = some v := by
  cases v <;> first | rfl | exact absurd trivial h

/-- **A merged value takes the place of anything but a table.** -/
theorem merge_eq_layOver {old : Option Value} {v : Value} (h : v.IsMerged)
    (hold : ∀ w ∈ old, ¬ w.IsTable) : some (merge old v) = layOver old (some v) := by
  cases h with
  | other h => rw [merge_of_not_isTable _ h, layOver_of_not_isTable _ h]
  | @table ms hkeys hms =>
    cases ms with
    | nil => cases old <;> rw [merge, mergeMembers] <;> rfl
    | cons m ms =>
      cases old with
      | none => exact congrArg some (merge_none (.table hkeys hms))
      | some w =>
        have hw : ¬ w.IsTable := hold w rfl
        rw [merge, Option.getD_some, mergeMembers, member?_of_not_isTable hw,
          withMember_of_not_isTable hw, merge_none (hms _ List.mem_cons_self)]
        exact congrArg some (@mergeMembers_eq_append [m] _ hkeys
          fun n hn => merge_none (hms n (List.mem_cons_of_mem _ hn)))

/-- Below a section that is a table on both sides, each key is laid over its own. -/
theorem at?_mergeMembers {old tree : Value} {part : Text} (htree : tree.IsMerged)
    (hold : ∃ w, old.member? part = some w ∧ w.IsTable)
    (hpart : ∀ w, tree.member? part = some w → w.IsTable) :
    (∃ w, (mergeMembers old tree.members).member? part = some w ∧ w.IsTable) ∧
      ∀ k, (∀ w ∈ old.at? part k, ¬ w.IsTable) →
        (mergeMembers old tree.members).at? part k =
          layOver (old.at? part k) (tree.at? part k) := by
  have hmember := member?_mergeMembers htree.nodup old part
  rw [← member?] at hmember
  cases hat : tree.member? part with
  | none =>
    rw [hat] at hmember
    refine ⟨hmember ▸ hold, fun k _ => ?_⟩
    rw [at?, at?, at?, hmember, hat, Option.bind_none]
    rfl
  | some w =>
    obtain ⟨d, hd, hdtable⟩ := hold
    have hw : w.IsMerged := htree.member hat
    obtain ⟨ms, o, rfl⟩ := isTable_iff.mp (hpart w hat)
    rw [hat, hd] at hmember
    dsimp only at hmember
    rw [merge, Option.getD_some] at hmember
    refine ⟨⟨_, hmember, isTable_mergeMembers hdtable ms⟩, fun k hk => ?_⟩
    rw [at?, hd, Option.bind_some] at hk
    have hlookup : (Value.table ms o).member? k = ms.lookup k := rfl
    have hkeys : (ms.map Prod.fst).Nodup := hw.nodup
    rw [at?, at?, at?, hmember, hat, hd, Option.bind_some, Option.bind_some, Option.bind_some,
      member?_mergeMembers hkeys, hlookup]
    cases hat' : ms.lookup k with
    | none => rfl
    | some v => exact merge_eq_layOver (hw.member (hlookup.trans hat')) hk

end Value

namespace KeyPath

/-! ## 4. Setting -/

theorem not_isTable_withItem (index : Nat) (v : Value) (old : Option Value) :
    ¬ (withItem index v old).IsTable := by
  unfold withItem
  split <;> exact id

/-- **Setting keeps values merged.** -/
theorem isMerged_set? {new : Value} {path : KeyPath} {old : Option Value} {v : Value}
    (hold : ∀ w ∈ old, w.IsMerged) (h : set? new path old = some v) : v.IsMerged := by
  induction path generalizing old v with
  | nil =>
    obtain rfl := Option.some.inj h
    exact Value.isMerged_merge hold new
  | cons step path ih =>
    cases step with
    | name key =>
      have htable : (old.getD .empty).IsMerged := by
        cases old with
        | none => exact Value.isMerged_empty
        | some w => exact hold w rfl
      rw [set?] at h
      obtain ⟨w, hw, h⟩ := Option.bind_eq_some_iff.mp h
      obtain rfl := Option.some.inj h
      exact htable.withMember (ih (fun u hu => htable.member hu) hw) key
    | position n =>
      rw [set?] at h
      obtain ⟨index, -, h⟩ := Option.bind_eq_some_iff.mp h
      dsimp only at h
      split at h
      · obtain rfl := Option.some.inj h
        exact .other (not_isTable_withItem index new old)
      · obtain ⟨w, -, h⟩ := Option.bind_eq_some_iff.mp h
        obtain rfl := Option.some.inj h
        exact .other (not_isTable_withItem index w old)

/-- Setting a key of a section to anything but a table puts it there. -/
theorem set?_leaf {new : Value} (hnew : ¬ new.IsTable) (part key : Text) (v : Value) :
    set? new [.name part, .name key] (some v) = some (v.put part key new) := by
  simp only [set?, Option.getD_some, Value.merge_of_not_isTable _ hnew]
  rfl

end KeyPath

end IsolatedSite
