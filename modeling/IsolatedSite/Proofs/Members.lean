/-
# Lists of members

Tables are lists of keys with what stands under them.  Looking a key up gives what stands under it
first; putting a member in replaces that, or adds a member at the end.
-/
import IsolatedSite.Document.Basic

namespace IsolatedSite

section Members

variable {α : Type} {key k : Text} {x : α} {ms : List (Text × α)}

/-! ## 1. Looking up -/

theorem lookup_cons_of_ne (h : k ≠ key) : ((key, x) :: ms).lookup k = ms.lookup k := by
  rw [List.lookup_cons, beq_false_of_ne h]

theorem lookup_of_not_mem (h : k ∉ ms.map Prod.fst) : ms.lookup k = none := by
  rw [List.lookup_eq_none_iff]
  intro m hm
  rw [bne_iff_ne]
  rintro rfl
  exact h (List.mem_map_of_mem hm)

theorem not_mem_of_lookup (h : ms.lookup k = none) : k ∉ ms.map Prod.fst := by
  intro hk
  obtain ⟨m, hm, rfl⟩ := List.mem_map.mp hk
  exact bne_iff_ne.mp (List.lookup_eq_none_iff.mp h m hm) rfl

theorem mem_of_lookup (h : ms.lookup k = some x) : (k, x) ∈ ms := by
  obtain ⟨l₁, l₂, rfl, -⟩ := List.lookup_eq_some_iff.mp h
  simp

theorem lookup_map {β : Type} (f : α → β) (ms : List (Text × α)) (key : Text) :
    (ms.map fun m => (m.1, f m.2)).lookup key = (ms.lookup key).map f := by
  induction ms with
  | nil => rfl
  | cons m ms ih =>
    by_cases h : key = m.1
    · subst h
      rw [List.map_cons, List.lookup_cons_self, List.lookup_cons_self]
      rfl
    · rw [List.map_cons, lookup_cons_of_ne h, lookup_cons_of_ne h, ih]

/-! ## 2. Putting in -/

@[simp] theorem lookup_putMember (key k : Text) (x : α) (ms : List (Text × α)) :
    (putMember key x ms).lookup k = if k = key then some x else ms.lookup k := by
  induction ms with
  | nil =>
    by_cases h : k = key
    · simp [putMember, h]
    · rw [putMember, lookup_cons_of_ne h, if_neg h]
  | cons m ms ih =>
    obtain ⟨key', y⟩ := m
    by_cases hkey : key' = key
    · subst hkey
      rw [putMember, if_pos rfl]
      by_cases h : k = key'
      · simp [h]
      · rw [lookup_cons_of_ne h, lookup_cons_of_ne h, if_neg h]
    · rw [putMember, if_neg hkey]
      by_cases h : k = key'
      · subst h
        simp [hkey]
      · rw [lookup_cons_of_ne h, lookup_cons_of_ne h, ih]

theorem mem_putMember {m : Text × α} (h : m ∈ putMember key x ms) : m = (key, x) ∨ m ∈ ms := by
  induction ms with
  | nil => exact .inl (List.mem_singleton.mp h)
  | cons n ms ih =>
    rw [putMember] at h
    split at h
    · rcases List.mem_cons.mp h with h | h
      · exact .inl h
      · exact .inr (List.mem_cons_of_mem _ h)
    · rcases List.mem_cons.mp h with h | h
      · exact .inr (h ▸ List.mem_cons_self)
      · exact (ih h).imp_right (List.mem_cons_of_mem _)

/-- No key comes to stand twice. -/
theorem nodup_putMember (h : (ms.map Prod.fst).Nodup) :
    ((putMember key x ms).map Prod.fst).Nodup := by
  induction ms with
  | nil => simp [putMember]
  | cons m ms ih =>
    rw [List.map_cons, List.nodup_cons] at h
    obtain ⟨hm, hms⟩ := h
    by_cases hkey : m.1 = key
    · rw [putMember, if_pos hkey, List.map_cons, List.nodup_cons]
      exact ⟨hkey ▸ hm, hms⟩
    · rw [putMember, if_neg hkey, List.map_cons, List.nodup_cons]
      refine ⟨fun hmem => ?_, ih hms⟩
      obtain ⟨n, hn, hfirst⟩ := List.mem_map.mp hmem
      rcases mem_putMember hn with rfl | hn
      · exact hkey hfirst.symm
      · exact hm (hfirst ▸ List.mem_map_of_mem hn)

/-- A new key comes last. -/
theorem putMember_of_not_mem (h : key ∉ ms.map Prod.fst) :
    putMember key x ms = ms ++ [(key, x)] := by
  induction ms with
  | nil => rfl
  | cons m ms ih =>
    rw [List.map_cons, List.mem_cons, not_or] at h
    rw [putMember, if_neg (Ne.symm h.1), ih h.2, List.cons_append]

end Members

end IsolatedSite
