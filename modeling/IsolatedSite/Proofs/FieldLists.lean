/-
# What adding and setting do to header fields

The fields of a message are seen through the values of each name (`Fields.valuesOf`).  `set` makes
a value the only one of its name, `add` puts one more behind the others, and neither touches the
values of any other name.  So the isolation headers, once set, are there exactly once with their
values (`isIsolated_isolate`), and setting a field of another name leaves them alone
(`IsIsolated.set_of_ne`).

`IsSendable` is what a field needs so that it can be told apart from its neighbours on the wire.
-/
import IsolatedSite.Http.Isolation
import IsolatedSite.Proofs.PlainText
import Mathlib.Data.List.Basic

namespace IsolatedSite.Http

namespace Fields

/-! ## 1. The values of a name -/

@[simp] theorem valuesOf_nil (name : Bytes) : valuesOf name [] = [] := rfl

theorem valuesOf_cons_self (name value : Bytes) (fs : Fields) :
    valuesOf name ((name, value) :: fs) = value :: valuesOf name fs := by
  simp [valuesOf]

theorem valuesOf_cons_of_ne {name : Bytes} {f : Field} (h : f.1 ≠ name) (fs : Fields) :
    valuesOf name (f :: fs) = valuesOf name fs := by
  simp [valuesOf, h]

theorem valuesOf_filter_self (name : Bytes) (fs : Fields) :
    valuesOf name (fs.filter fun g => g.1 ≠ name) = [] := by
  simp [valuesOf, List.filter_filter]

theorem valuesOf_filter_of_ne {m name : Bytes} (h : m ≠ name) (fs : Fields) :
    valuesOf m (fs.filter fun g => g.1 ≠ name) = valuesOf m fs := by
  simp only [valuesOf, List.filter_filter]
  congr 1
  refine List.filter_congr fun f _ => ?_
  by_cases hf : f.1 = m
  · simp [hf, h]
  · simp [hf]

/-- A name has a value exactly if it has values. -/
theorem has_iff {name : Bytes} {fs : Fields} : has name fs = true ↔ valuesOf name fs ≠ [] := by
  simp [has, names, valuesOf]

/-- The first of the values of a name is found under it. -/
theorem first?_of_valuesOf {name value : Bytes} {values : List Bytes} {fs : Fields}
    (h : valuesOf name fs = value :: values) : first? name fs = some value := by
  induction fs with
  | nil => cases h
  | cons f fs ih =>
    obtain ⟨n, v⟩ := f
    by_cases hn : n = name
    · subst hn
      rw [valuesOf_cons_self] at h
      simp [first?, List.head_eq_of_cons_eq h]
    · rw [valuesOf_cons_of_ne hn] at h
      have hne : (name == n) = false := by simpa using Ne.symm hn
      simpa [first?, List.lookup_cons, hne] using ih h

theorem first?_of_not_has {name : Bytes} {fs : Fields} (h : has name fs = false) :
    first? name fs = none := by
  refine List.lookup_eq_none_iff.mpr fun f hf => ?_
  have hne : name ≠ f.1 := by
    rintro rfl
    have hmem : has f.1 fs = true := by simpa [has, names] using ⟨f.2, hf⟩
    rw [h] at hmem
    cases hmem
  simpa using hne

/-! ## 2. Setting -/

/-- **What is set is the only value of its name.** -/
@[simp] theorem valuesOf_set_self (name value : Bytes) (fs : Fields) :
    valuesOf name (set name value fs) = [value] := by
  induction fs with
  | nil => simp [set, valuesOf_cons_self]
  | cons f fs ih =>
    by_cases h : f.1 = name
    · rw [set, if_pos h, valuesOf_cons_self, valuesOf_filter_self]
    · rw [set, if_neg h, valuesOf_cons_of_ne h, ih]

/-- **Setting leaves other names alone.** -/
theorem valuesOf_set_of_ne {m name : Bytes} (h : m ≠ name) (value : Bytes) (fs : Fields) :
    valuesOf m (set name value fs) = valuesOf m fs := by
  induction fs with
  | nil => rw [set, valuesOf_cons_of_ne (Ne.symm h)]
  | cons f fs ih =>
    by_cases hf : f.1 = name
    · have hm : f.1 ≠ m := fun e => h (e ▸ hf)
      rw [set, if_pos hf, valuesOf_cons_of_ne (Ne.symm h), valuesOf_filter_of_ne h,
        valuesOf_cons_of_ne hm]
    · rw [set, if_neg hf]
      by_cases hm : f.1 = m
      · obtain ⟨n, v⟩ := f
        subst hm
        rw [valuesOf_cons_self, valuesOf_cons_self, ih]
      · rw [valuesOf_cons_of_ne hm, valuesOf_cons_of_ne hm, ih]

theorem mem_set {name value : Bytes} {fs : Fields} {f : Field} (h : f ∈ set name value fs) :
    f = (name, value) ∨ f ∈ fs := by
  induction fs with
  | nil => exact Or.inl (by simpa [set] using h)
  | cons g fs ih =>
    by_cases hg : g.1 = name
    · rw [set, if_pos hg] at h
      rcases List.mem_cons.mp h with rfl | h
      · exact Or.inl rfl
      · exact Or.inr (List.mem_cons_of_mem _ (List.mem_of_mem_filter h))
    · rw [set, if_neg hg] at h
      rcases List.mem_cons.mp h with rfl | h
      · exact Or.inr (by simp)
      · rcases ih h with h | h
        · exact Or.inl h
        · exact Or.inr (List.mem_cons_of_mem _ h)

/-! ## 3. Adding -/

/-- **Adding leaves other names alone.** -/
theorem valuesOf_add_of_ne {m name : Bytes} (h : m ≠ name) (value : Bytes) (fs : Fields) :
    valuesOf m (add name value fs) = valuesOf m fs := by
  induction fs with
  | nil => rw [add, valuesOf_cons_of_ne (Ne.symm h)]
  | cons f fs ih =>
    by_cases hf : f.1 = name ∧ ¬ has name fs
    · have hm : f.1 ≠ m := fun e => h (e ▸ hf.1)
      rw [add, if_pos hf, valuesOf_cons_of_ne hm, valuesOf_cons_of_ne (Ne.symm h),
        valuesOf_cons_of_ne hm]
    · rw [add, if_neg hf]
      by_cases hm : f.1 = m
      · obtain ⟨n, v⟩ := f
        subst hm
        rw [valuesOf_cons_self, valuesOf_cons_self, ih]
      · rw [valuesOf_cons_of_ne hm, valuesOf_cons_of_ne hm, ih]

/-- **What is added is the last value of its name.** -/
theorem valuesOf_add_self (name value : Bytes) (fs : Fields) :
    valuesOf name (add name value fs) = valuesOf name fs ++ [value] := by
  induction fs with
  | nil => simp [add, valuesOf_cons_self]
  | cons f fs ih =>
    obtain ⟨n, v⟩ := f
    by_cases hf : n = name ∧ ¬ has name fs
    · obtain ⟨rfl, hnone⟩ := hf
      have hempty : valuesOf n fs = [] := by
        by_contra hne
        exact hnone (has_iff.mpr hne)
      rw [add, if_pos ⟨rfl, hnone⟩, valuesOf_cons_self, valuesOf_cons_self, valuesOf_cons_self,
        hempty]
      rfl
    · rw [add, if_neg hf]
      by_cases hn : n = name
      · subst hn
        rw [valuesOf_cons_self, valuesOf_cons_self, ih]
        rfl
      · rw [valuesOf_cons_of_ne hn, valuesOf_cons_of_ne hn, ih]

theorem mem_add {name value : Bytes} {fs : Fields} {f : Field} (h : f ∈ add name value fs) :
    f = (name, value) ∨ f ∈ fs := by
  induction fs with
  | nil => exact Or.inl (by simpa [add] using h)
  | cons g fs ih =>
    by_cases hg : g.1 = name ∧ ¬ has name fs
    · rw [add, if_pos hg] at h
      rcases List.mem_cons.mp h with rfl | h
      · exact Or.inr (by simp)
      · rcases List.mem_cons.mp h with rfl | h
        · exact Or.inl rfl
        · exact Or.inr (List.mem_cons_of_mem _ h)
    · rw [add, if_neg hg] at h
      rcases List.mem_cons.mp h with rfl | h
      · exact Or.inr (by simp)
      · rcases ih h with h | h
        · exact Or.inl h
        · exact Or.inr (List.mem_cons_of_mem _ h)

/-! ## 4. The isolation headers -/

/-- Each isolation header is there exactly once, with its value. -/
def IsIsolated (fs : Fields) : Prop := ∀ f ∈ isolationFields, valuesOf f.1 fs = [f.2]

instance (fs : Fields) : Decidable (IsIsolated fs) :=
  List.decidableBAll (fun f : Field => valuesOf f.1 fs = [f.2]) isolationFields

/-- **Isolating isolates.**  The three names differ, so a later one does not undo an earlier. -/
theorem isIsolated_isolate (fs : Fields) : IsIsolated fs.isolate := by
  intro f hf
  simp only [isolationFields, List.mem_cons, List.not_mem_nil, or_false] at hf
  rcases hf with rfl | rfl | rfl <;>
    simp only [isolate, isolationFields, List.foldl_cons, List.foldl_nil]
  · rw [valuesOf_set_of_ne (by decide), valuesOf_set_of_ne (by decide), valuesOf_set_self]
  · rw [valuesOf_set_of_ne (by decide), valuesOf_set_self]
  · rw [valuesOf_set_self]

/-- **Step by step.**  What holds of the fields, and is kept by setting any one of the isolation
headers, holds when they are set. -/
theorem isolate_induction {P : Fields → Prop} {fs : Fields} (h : P fs)
    (hset : ∀ f ∈ isolationFields, ∀ acc, P acc → P (set f.1 f.2 acc)) : P fs.isolate :=
  List.foldlRecOn isolationFields _ h fun acc hacc f hf => hset f hf acc hacc

theorem valuesOf_isolate_of_ne {name : Bytes} (h : ∀ f ∈ isolationFields, name ≠ f.1)
    (fs : Fields) : valuesOf name fs.isolate = valuesOf name fs := by
  refine isolate_induction (P := fun acc => valuesOf name acc = valuesOf name fs) rfl ?_
  intro f hf acc hacc
  rw [valuesOf_set_of_ne (h f hf), hacc]

theorem IsIsolated.set_of_ne {name : Bytes} {fs : Fields} (h : IsIsolated fs) (value : Bytes)
    (hname : ∀ f ∈ isolationFields, f.1 ≠ name) : IsIsolated (set name value fs) := by
  intro f hf
  rw [valuesOf_set_of_ne (hname f hf)]
  exact h f hf

/-! ## 5. Fields that can be sent -/

/-- The name is a token in lower case, and the value has no control characters. -/
structure IsSendable (f : Field) : Prop where
  name_token : ∀ b ∈ f.1, isTokenByte b = true
  name_lower : f.1.map Byte.toLower = f.1
  value_valid : f.2.all isValueByte = true

instance (f : Field) : Decidable (IsSendable f) :=
  decidable_of_iff (f.1.all isTokenByte = true ∧ f.1.map Byte.toLower = f.1 ∧
    f.2.all isValueByte = true)
    ⟨fun h => ⟨List.all_eq_true.mp h.1, h.2.1, h.2.2⟩,
      fun h => ⟨List.all_eq_true.mpr h.1, h.2, h.3⟩⟩

/-- Fields that can all be sent. -/
def AreSendable (fs : Fields) : Prop := ∀ f ∈ fs, IsSendable f

instance (fs : Fields) : Decidable (AreSendable fs) := List.decidableBAll IsSendable fs

theorem AreSendable.set {fs : Fields} (h : AreSendable fs) {name value : Bytes}
    (hf : IsSendable (name, value)) : AreSendable (set name value fs) := by
  intro f hmem
  rcases mem_set hmem with rfl | hmem
  · exact hf
  · exact h f hmem

theorem AreSendable.add {fs : Fields} (h : AreSendable fs) {name value : Bytes}
    (hf : IsSendable (name, value)) : AreSendable (add name value fs) := by
  intro f hmem
  rcases mem_add hmem with rfl | hmem
  · exact hf
  · exact h f hmem

theorem AreSendable.isolate {fs : Fields} (h : AreSendable fs) : AreSendable fs.isolate := by
  have hfixed : AreSendable isolationFields := by decide +kernel
  exact isolate_induction h fun f hf acc hacc => hacc.set (hfixed f hf)

end Fields

end IsolatedSite.Http
