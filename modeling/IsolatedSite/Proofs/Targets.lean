/-
# Request targets, written and read

A target that was read consists of octets that may stand in a path and in a query
(`isWellFormed_of_parse?`), of which none is the mark of a query or of a fragment in a path.  So
the two can be told apart where they are written behind one another (`cutAt_written`), and what is
written is read as the same target again (`parse?_written`).
-/
import IsolatedSite.Http.Target
import IsolatedSite.Proofs.AsciiOctets
import IsolatedSite.Proofs.Cutting
import IsolatedSite.Proofs.WellFormedOctets
import Mathlib.Data.List.TakeWhile

namespace IsolatedSite.Http.Target

/-! ## 1. What a target consists of -/

/-- A target of octets that may stand in a path and in a query. -/
structure IsWellFormed (target : Target) : Prop where
  path : ∀ b ∈ Utf8.encode target.path, isPathByte b = true
  query : ∀ query, target.query = some query → ∀ b ∈ Utf8.encode query, isQueryByte b = true

/-- What a path and query is read of. -/
theorem exists_of_pathAndQuery? {b : Bytes} {target : Target} (h : pathAndQuery? b = some target) :
    ∃ (octets : Bytes) (found : Option Bytes) (path : Text), octets.all isPathByte = true ∧
      (found.getD []).all isQueryByte = true ∧ Utf8.decode? octets = some path ∧
      found.mapM Utf8.decode? = some target.query ∧
      target.path = if path = [] then ['/'] else path := by
  unfold pathAndQuery? at h
  dsimp only at h
  split_ifs at h with hbytes
  · cases h
  · obtain ⟨path, hpath, h⟩ := Option.bind_eq_some_iff.mp h
    obtain ⟨query, hquery, h⟩ := Option.bind_eq_some_iff.mp h
    obtain rfl := Option.some.inj h
    obtain ⟨hoctets, hfound⟩ := not_or.mp hbytes
    exact ⟨_, _, path, Decidable.not_not.mp hoctets, Decidable.not_not.mp hfound, hpath, hquery,
      rfl⟩

theorem isWellFormed_of_pathAndQuery? {b : Bytes} {target : Target}
    (h : pathAndQuery? b = some target) : target.IsWellFormed := by
  obtain ⟨octets, found, path, hoctets, hfound, hpath, hquery, htarget⟩ :=
    exists_of_pathAndQuery? h
  constructor
  · rw [htarget]
    split
    · exact List.all_eq_true.mp (show (Utf8.encode ['/']).all isPathByte = true by decide)
    · rw [← Utf8.decode?_eq_some_iff.mp hpath]
      exact List.all_eq_true.mp hoctets
  · cases found with
    | none =>
      have hnone : none = target.query := Option.some.inj hquery
      simp [← hnone]
    | some octets =>
      have hsome : (Utf8.decode? octets).map some = some target.query := hquery
      obtain ⟨read, hread, hsome⟩ := Option.map_eq_some_iff.mp hsome
      rintro query htarget
      obtain rfl : read = query := Option.some.inj (hsome.trans htarget)
      rw [← Utf8.decode?_eq_some_iff.mp hread]
      exact List.all_eq_true.mp hfound

/-- **What is read of a target** may stand where it stands. -/
theorem isWellFormed_of_parse? {b : Bytes} {target : Target} (h : parse? b = some target) :
    target.IsWellFormed := by
  have hempty : IsWellFormed ⟨[], none⟩ :=
    ⟨List.all_eq_true.mp (show (Utf8.encode []).all isPathByte = true by decide), by simp⟩
  have hstar : IsWellFormed ⟨['*'], none⟩ :=
    ⟨List.all_eq_true.mp (show (Utf8.encode ['*']).all isPathByte = true by decide), by simp⟩
  unfold parse? at h
  split at h
  · cases h
  · split at h
    · cases h
      exact hstar
    · split at h
      · exact isWellFormed_of_pathAndQuery? h
      · split at h
        · cases h
        · split at h
          · cases h
            exact hempty
          · cases h
        · dsimp only at h
          split at h
          · cases h
          · exact isWellFormed_of_pathAndQuery? h

/-! ## 2. Writing a target -/

/-- A target as it is written: its path, and behind a question mark its query if it has one. -/
def written (target : Target) : Bytes :=
  Utf8.encode target.path ++ (match target.query with
    | some query => 63 :: Utf8.encode query
    | none => [])

theorem written_of_query {target : Target} {query : Text} (h : target.query = some query) :
    target.written = Utf8.encode target.path ++ 63 :: Utf8.encode query := by
  rw [written, h]

theorem written_of_no_query {target : Target} (h : target.query = none) :
    target.written = Utf8.encode target.path := by
  rw [written, h, List.append_nil]

theorem ne_of_isPathByte {b : UInt8} (h : isPathByte b = true) : b ≠ 63 ∧ b ≠ 35 := by
  constructor
  · rintro rfl
    exact absurd h (by decide)
  · rintro rfl
    exact absurd h (by decide)

theorem ne_of_isQueryByte {b : UInt8} (h : isQueryByte b = true) : b ≠ 35 := by
  rintro rfl
  exact absurd h (by decide)

/-- **The first question mark** is the one in front of the query. -/
theorem IsWellFormed.cutAt_written {target : Target} (h : target.IsWellFormed) :
    cutAt 63 target.written =
      target.query.map fun query => (Utf8.encode target.path, Utf8.encode query) := by
  have hpath : 63 ∉ Utf8.encode target.path := fun hmem =>
    (ne_of_isPathByte (h.path 63 hmem)).1 rfl
  cases hquery : target.query with
  | none => rw [written_of_no_query hquery, cutAt_of_not_mem hpath, Option.map_none]
  | some query => rw [written_of_query hquery, cutAt_append hpath, Option.map_some]

/-- There is no fragment in what is written. -/
theorem IsWellFormed.beforeFragment_written {target : Target} (h : target.IsWellFormed) :
    beforeFragment target.written = target.written := by
  have hpath : ∀ b ∈ Utf8.encode target.path, b ≠ 35 := fun b hb =>
    (ne_of_isPathByte (h.path b hb)).2
  refine List.takeWhile_eq_self_iff.mpr fun b hb => bne_iff_ne.mpr ?_
  cases hquery : target.query with
  | none =>
    rw [written_of_no_query hquery] at hb
    exact hpath b hb
  | some query =>
    rw [written_of_query hquery] at hb
    rcases List.mem_append.mp hb with hb | hb
    · exact hpath b hb
    · rcases List.mem_cons.mp hb with rfl | hb
      · decide
      · exact ne_of_isQueryByte (h.query query hquery b hb)

theorem IsWellFormed.pathAndQuery?_written {target : Target} (h : target.IsWellFormed)
    (hne : target.path ≠ []) : pathAndQuery? target.written = some target := by
  have hpath : (Utf8.encode target.path).all isPathByte = true := List.all_eq_true.mpr h.path
  have hquery : ∀ query, target.query = some query →
      (Utf8.encode query).all isQueryByte = true :=
    fun query hsome => List.all_eq_true.mpr (h.query query hsome)
  rw [pathAndQuery?, h.beforeFragment_written, h.cutAt_written]
  obtain ⟨path, query⟩ := target
  cases query with
  | none =>
    have hwritten : written ⟨path, none⟩ = Utf8.encode path := written_of_no_query rfl
    simp [hwritten, hpath, hne, Utf8.decode?_encode]
  | some query => simp [hpath, hquery, hne, Utf8.decode?_encode]

/-- **What is written of a target** is read as the target again. -/
theorem IsWellFormed.parse?_written {target : Target} (h : target.IsWellFormed)
    (hslash : target.path.head? = some '/') (hlength : target.written.length ≤ maxLength) :
    parse? target.written = some target := by
  obtain ⟨path, hpath⟩ := List.head?_eq_some_iff.mp hslash
  obtain ⟨rest, hrest⟩ : ∃ rest, target.written = 47 :: rest := by
    rw [written, hpath, Utf8.encode_cons]
    exact ⟨_, rfl⟩
  have hread : pathAndQuery? target.written = some target :=
    h.pathAndQuery?_written (by simp [hpath])
  rw [hrest] at hlength hread ⊢
  have hlimit : ¬ ((47 : UInt8) :: rest = [] ∨ maxLength < ((47 : UInt8) :: rest).length) := by
    simpa using hlength
  have hstar : (47 : UInt8) :: rest ≠ [42] := by simp
  rw [parse?, if_neg hlimit, if_neg hstar, if_pos List.head?_cons, hread]

end IsolatedSite.Http.Target
