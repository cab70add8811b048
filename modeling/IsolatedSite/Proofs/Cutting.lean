/-
# Cutting lists

What is cut off a list and what is left are known once the list is an append: at the first
separator (`cutAt_append`), at the last one (`afterLast_append`), at each of them
(`splitAtEach_append_sep`), or behind a given beginning (`afterStart?_eq_some_iff`).  What is true
of all that is joined is true of the whole (`forall_mem_joinWith`).  A run of a class of elements is
the same however the list is split at the end of one (`run_append_inj`).
-/
import IsolatedSite.Text.Basic
import Mathlib.Data.List.TakeWhile

namespace IsolatedSite

/-! ## 1. Behind a beginning, at the first separator, at the last one -/

variable {α : Type} [DecidableEq α] {sep : α} {start xs rest front back : List α}

theorem afterStart?_eq_some_iff : afterStart? start xs = some rest ↔ xs = start ++ rest := by
  induction start generalizing xs with
  | nil => simp [afterStart?]
  | cons p start ih =>
    cases xs with
    | nil => simp [afterStart?]
    | cons x xs =>
      by_cases hp : p = x
      · simp [afterStart?, hp, ih]
      · simp [afterStart?, hp, Ne.symm hp]

theorem afterStart?_append (start rest : List α) :
    afterStart? start (start ++ rest) = some rest := afterStart?_eq_some_iff.mpr rfl

theorem cutAt_append (h : sep ∉ front) (back : List α) :
    cutAt sep (front ++ sep :: back) = some (front, back) := by
  induction front with
  | nil => simp [cutAt]
  | cons x front ih =>
    have hx : x ≠ sep := fun heq => h (by simp [heq])
    rw [List.cons_append, cutAt, if_neg hx, ih fun hmem => h (List.mem_cons_of_mem _ hmem)]
    rfl

theorem cutAt_of_not_mem (h : sep ∉ xs) : cutAt sep xs = none := by
  induction xs with
  | nil => rfl
  | cons x xs ih =>
    have hx : x ≠ sep := fun heq => h (by simp [heq])
    rw [cutAt, if_neg hx, ih fun hmem => h (List.mem_cons_of_mem _ hmem)]
    rfl

theorem eq_append_of_cutAt (h : cutAt sep xs = some (front, back)) : xs = front ++ sep :: back := by
  induction xs generalizing front with
  | nil => simp [cutAt] at h
  | cons x xs ih =>
    by_cases hx : x = sep
    · obtain ⟨rfl, rfl⟩ : [] = front ∧ xs = back := by simpa [cutAt, hx] using h
      rw [hx]
      rfl
    · rw [cutAt, if_neg hx] at h
      obtain ⟨⟨front', back'⟩, hcut, heq⟩ := Option.map_eq_some_iff.mp h
      obtain ⟨rfl, rfl⟩ := Prod.mk.inj heq
      rw [ih hcut]
      rfl

theorem afterLast_append (front : List α) (h : sep ∉ back) :
    afterLast sep (front ++ sep :: back) = back := by
  have hback : ∀ x ∈ back.reverse, decide (x ≠ sep) = true := by
    intro x hx
    refine decide_eq_true ?_
    rintro rfl
    exact h (List.mem_reverse.mp hx)
  rw [afterLast, List.reverse_append, List.reverse_cons, List.append_assoc,
    List.takeWhile_append_of_pos hback, List.singleton_append,
    List.takeWhile_cons_of_neg (by simp), List.append_nil, List.reverse_reverse]

omit [DecidableEq α] in
/-- A list that holds a separator has a last one. -/
theorem exists_last_of_mem (h : sep ∈ xs) :
    ∃ front back, xs = front ++ sep :: back ∧ sep ∉ back := by
  obtain ⟨back, front, hsplit, hback⟩ := List.eq_append_cons_of_mem (List.mem_reverse.mpr h)
  refine ⟨front.reverse, back.reverse, ?_, fun hmem => hback (List.mem_reverse.mp hmem)⟩
  rw [← List.reverse_reverse xs, hsplit]
  simp

/-! ## 2. At each separator -/

theorem splitAtEach_ne_nil (sep : α) (xs : List α) :
    splitAtEach sep xs ≠ [] := by
  cases xs with
  | nil => simp [splitAtEach]
  | cons x xs =>
    unfold splitAtEach
    split
    · simp
    · split <;> simp

/-- **Cutting at a separator** may be done in two goes. -/
theorem splitAtEach_append_sep (sep : α) (xs ys : List α) :
    splitAtEach sep (xs ++ sep :: ys) = splitAtEach sep xs ++ splitAtEach sep ys := by
  induction xs with
  | nil => simp [splitAtEach]
  | cons x xs ih =>
    rw [List.cons_append, splitAtEach, splitAtEach, ih]
    by_cases hx : x = sep
    · rw [if_pos hx, if_pos hx, List.cons_append]
    · rw [if_neg hx, if_neg hx]
      cases hsplit : splitAtEach sep xs with
      | nil => exact absurd hsplit (splitAtEach_ne_nil sep xs)
      | cons p ps => rfl

/-- What is true of a separator is true of a list exactly if it is true of its pieces. -/
theorem forall_mem_splitAtEach_iff {P : α → Prop} (sep : α) (hsep : P sep) :
    (∀ piece ∈ splitAtEach sep xs, ∀ x ∈ piece, P x) ↔ ∀ x ∈ xs, P x := by
  induction xs with
  | nil => simp [splitAtEach]
  | cons x xs ih =>
    rw [List.forall_mem_cons, ← ih, splitAtEach]
    split
    · rename_i hx
      simp [hx, hsep]
    · cases hsplit : splitAtEach sep xs with
      | nil => exact absurd hsplit (splitAtEach_ne_nil sep xs)
      | cons p ps => simp [and_assoc]

/-! ## 3. Joining -/

omit [DecidableEq α] in
/-- What is true of a separator and of all pieces is true of the pieces with the separator between
them. -/
theorem forall_mem_joinWith {P : α → Prop} {sep : List α} {pieces : List (List α)}
    (hsep : ∀ x ∈ sep, P x) (h : ∀ piece ∈ pieces, ∀ x ∈ piece, P x) :
    ∀ x ∈ joinWith sep pieces, P x := by
  induction pieces with
  | nil => exact fun x hx => by cases hx
  | cons piece pieces ih =>
    obtain ⟨hpiece, hpieces⟩ := List.forall_mem_cons.mp h
    cases pieces with
    | nil => exact hpiece
    | cons next pieces =>
      rw [joinWith, List.forall_mem_append, List.forall_mem_append]
      exact ⟨⟨hpiece, hsep⟩, ih hpieces⟩

/-! ## 4. Runs -/

section Runs

variable {β : Type} {p : β → Bool} {run run' after after' : List β}

/-- No element of a class stands at the beginning of a list. -/
def EndsRun (p : β → Bool) (after : List β) : Prop := ∀ x ∈ after.head?, p x = false

theorem endsRun_cons {x : β} (h : p x = false) (xs : List β) : EndsRun p (x :: xs) := by
  rintro y ⟨⟩
  exact h

/-- What ends a run of a class ends one of any smaller class. -/
theorem EndsRun.mono {q : β → Bool} (h : EndsRun p after) (hle : ∀ x, q x = true → p x = true) :
    EndsRun q after := fun x hx => by
  by_contra hq
  rw [Bool.not_eq_false] at hq
  exact absurd (hle x hq) (by simp [h x hx])

theorem takeWhile_run (h : ∀ x ∈ run, p x = true) (hafter : EndsRun p after) :
    (run ++ after).takeWhile p = run := by
  rw [List.takeWhile_append_of_pos h]
  cases after with
  | nil => simp
  | cons x after => rw [List.takeWhile_cons_of_neg (by simp [hafter x rfl]), List.append_nil]

theorem dropWhile_run (h : ∀ x ∈ run, p x = true) (hafter : EndsRun p after) :
    (run ++ after).dropWhile p = after := by
  rw [List.dropWhile_append_of_pos h]
  cases after with
  | nil => rfl
  | cons x after => exact List.dropWhile_cons_of_neg (by simp [hafter x rfl])

/-- A list begins with a run of each class, which may be empty. -/
theorem exists_run (p : β → Bool) (xs : List β) :
    ∃ run after, xs = run ++ after ∧ (∀ x ∈ run, p x = true) ∧ EndsRun p after := by
  refine ⟨xs.takeWhile p, xs.dropWhile p, List.takeWhile_append_dropWhile.symm,
    fun x hx => List.mem_takeWhile_imp hx, fun x hx => ?_⟩
  have hhead := List.head?_dropWhile_not p xs
  rw [Option.mem_def.mp hx] at hhead
  exact hhead

/-- Two runs at the beginning of one list are the same if no more of the class follows. -/
theorem run_append_inj (h : ∀ x ∈ run, p x = true) (h' : ∀ x ∈ run', p x = true)
    (hafter : EndsRun p after) (hafter' : EndsRun p after') (heq : run ++ after = run' ++ after') :
    run = run' ∧ after = after' := by
  have hsame : run = run' := by rw [← takeWhile_run h hafter, heq, takeWhile_run h' hafter']
  subst hsame
  exact ⟨rfl, List.append_cancel_left heq⟩

/-- A separator with a run behind it that does not contain it stands at one place only. -/
theorem last_run_inj {front front' : List β} {sep : β} (hsep : p sep = false)
    (h : ∀ x ∈ run, p x = true) (h' : ∀ x ∈ run', p x = true)
    (heq : front ++ sep :: run = front' ++ sep :: run') : front = front' ∧ run = run' := by
  have hends : ∀ xs : List β, EndsRun p (sep :: xs) := endsRun_cons hsep
  have hreverse : run.reverse ++ sep :: front.reverse = run'.reverse ++ sep :: front'.reverse := by
    simpa using congrArg List.reverse heq
  obtain ⟨hrun, hfront⟩ := run_append_inj (by simpa using h) (by simpa using h') (hends _)
    (hends _) hreverse
  exact ⟨List.reverse_inj.mp (List.cons.inj hfront).2, List.reverse_inj.mp hrun⟩

end Runs

end IsolatedSite
