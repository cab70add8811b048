/-
# What the isolation headers leave alone

The isolation headers are set one after the other, each in the place of what its name had or at the
end.  `isolation_changes_nothing_else` says what that does to any fields: each of the three names
has its one value, the fields under other names are the same ones in the same order, the values of
a name still stand together if they did, and doing it again does nothing.  So an answer keeps its
status and its body.

That the values of a name stand together (`IsGrouped`) is what makes a list of fields a header:
`ofPairs?` makes no others.
-/
import IsolatedSite.Proofs.FieldLists
import IsolatedSite.Site.Serve

namespace IsolatedSite

namespace Http.Fields

variable {own : List Bytes} {name value : Bytes} {fs : Fields}

/-! ## 1. The other fields -/

/-- The fields whose names are not among the given ones, in order. -/
def without (own : List Bytes) (fs : Fields) : Fields := fs.filter fun f => f.1 ∉ own

/-- **Setting leaves the fields under other names where they are.**  The cases are those of `set`:
the field is put in at its place, or the place is further on. -/
theorem without_set (h : name ∈ own) (value : Bytes) (fs : Fields) :
    without own (set name value fs) = without own fs := by
  induction fs with
  | nil => simp [set, without, h]
  | cons f fs ih =>
    by_cases hf : f.1 = name
    · have hrest : without own (fs.filter fun g => g.1 ≠ name) = without own fs := by
        rw [without, List.filter_filter]
        refine List.filter_congr fun g _ => ?_
        by_cases hg : g.1 = name
        · simp [hg, h]
        · simp [hg]
      rw [set, if_pos hf, without, List.filter_cons_of_neg (by simpa using h),
        without, List.filter_cons_of_neg (by simpa [hf] using h)]
      exact hrest
    · rw [set, if_neg hf, without, without, List.filter_cons, List.filter_cons]
      exact ite_congr rfl (fun _ => congrArg (f :: ·) ih) fun _ => ih

theorem not_mem_of_valuesOf (h : valuesOf name fs = []) : ∀ f ∈ fs, f.1 ≠ name := by
  intro f hf hsame
  have hmem : f.2 ∈ valuesOf name fs :=
    List.mem_map.mpr ⟨f, List.mem_filter.mpr ⟨hf, decide_eq_true hsame⟩, rfl⟩
  rw [h] at hmem
  cases hmem

/-- Setting the only value of a name does nothing. -/
theorem set_eq_self (h : valuesOf name fs = [value]) : set name value fs = fs := by
  induction fs with
  | nil => cases h
  | cons f fs ih =>
    obtain ⟨n, v⟩ := f
    by_cases hn : n = name
    · subst hn
      rw [valuesOf_cons_self] at h
      obtain ⟨rfl, hnone⟩ := List.cons.inj h
      rw [set, if_pos rfl, List.filter_eq_self.mpr]
      intro g hg
      exact decide_eq_true (not_mem_of_valuesOf hnone g hg)
    · rw [valuesOf_cons_of_ne hn] at h
      rw [set, if_neg hn, ih h]

/-! ## 2. Fields of a header -/

/-- The values of each name stand together: no other name comes between two fields of one name. -/
def IsGrouped (fs : Fields) : Prop := ∀ m n, [m, n, m].Sublist (names fs) → n = m

theorem mem_names_iff : name ∈ names fs ↔ has name fs = true := by
  rw [has, List.contains_iff_mem]

/-- Setting a name that has values keeps its place; only further fields of the name go. -/
theorem names_set_sublist (h : name ∈ names fs) (value : Bytes) :
    (names (set name value fs)).Sublist (names fs) := by
  induction fs with
  | nil => cases h
  | cons f fs ih =>
    by_cases hf : f.1 = name
    · rw [set, if_pos hf]
      simp only [names, List.map_cons, hf]
      exact (List.filter_sublist.map _).cons_cons _
    · rw [set, if_neg hf]
      rcases List.mem_cons.mp h with heq | hrest
      · exact absurd heq.symm hf
      · exact (ih hrest).cons_cons _

theorem set_of_not_mem (h : name ∉ names fs) (value : Bytes) :
    set name value fs = fs ++ [(name, value)] := by
  induction fs with
  | nil => rfl
  | cons f fs ih =>
    obtain ⟨hf, hrest⟩ : name ≠ f.1 ∧ name ∉ names fs := by simpa [names] using h
    rw [set, if_neg (Ne.symm hf), ih hrest, List.cons_append]

/-- A field of a new name at the end is in no one's way. -/
theorem IsGrouped.concat (h : IsGrouped fs) (hname : name ∉ names fs) (value : Bytes) :
    IsGrouped (fs ++ [(name, value)]) := by
  intro m n hsub
  rw [names, List.map_append] at hsub
  obtain ⟨front, back, heq, hfront, hback⟩ := List.sublist_append_iff.mp hsub
  rcases List.sublist_singleton.mp hback with rfl | rfl
  · rw [List.append_nil] at heq
    exact h m n (heq ▸ hfront)
  · have hcut : [m, n] ++ [m] = front ++ [name] := heq
    obtain ⟨rfl, hlast⟩ := List.append_inj' hcut rfl
    obtain rfl := List.head_eq_of_cons_eq hlast
    exact absurd (hfront.subset List.mem_cons_self) hname

theorem IsGrouped.set (h : IsGrouped fs) (name value : Bytes) :
    IsGrouped (Fields.set name value fs) := by
  by_cases hname : name ∈ names fs
  · intro m n hsub
    exact h m n (hsub.trans (names_set_sublist hname value))
  · rw [set_of_not_mem hname]
    exact h.concat hname value

/-- A name put behind its last field: twice in a row where it was once. -/
theorem names_add_of_mem (h : name ∈ names fs) (value : Bytes) :
    ∃ front back, names fs = front ++ name :: back ∧
      names (add name value fs) = front ++ name :: name :: back := by
  induction fs with
  | nil => cases h
  | cons f fs ih =>
    by_cases hlast : f.1 = name ∧ ¬ has name fs
    · rw [add, if_pos hlast]
      exact ⟨[], names fs, by simp [names, hlast.1], by simp [names, hlast.1]⟩
    · rw [add, if_neg hlast]
      have hrest : name ∈ names fs := by
        rcases List.mem_cons.mp h with heq | hrest
        · by_contra hnone
          exact hlast ⟨heq.symm, fun hhas => hnone (mem_names_iff.mpr hhas)⟩
        · exact hrest
      obtain ⟨front, back, hbefore, hafter⟩ := ih hrest
      exact ⟨f.1 :: front, back, congrArg (f.1 :: ·) hbefore, congrArg (f.1 :: ·) hafter⟩

theorem add_of_not_mem (h : name ∉ names fs) (value : Bytes) :
    add name value fs = fs ++ [(name, value)] := by
  induction fs with
  | nil => rfl
  | cons f fs ih =>
    obtain ⟨hf, hrest⟩ : name ≠ f.1 ∧ name ∉ names fs := by simpa [names] using h
    rw [add, if_neg fun hlast => hf hlast.1.symm, ih hrest, List.cons_append]

/-- A list without repetitions in a row meets a repetition in a row once at most. -/
theorem sublist_of_stutter {l front back : List Bytes} (hl : l.IsChain (· ≠ ·))
    (h : l.Sublist (front ++ name :: name :: back)) : l.Sublist (front ++ name :: back) := by
  induction front generalizing l with
  | nil =>
    rcases List.sublist_cons_iff.mp h with hskip | ⟨rest, rfl, hrest⟩
    · exact hskip
    · rcases List.sublist_cons_iff.mp hrest with hskip | ⟨more, rfl, -⟩
      · exact hskip.cons_cons name
      · exact absurd rfl (List.isChain_cons_cons.mp hl).1
  | cons x front ih =>
    rcases List.sublist_cons_iff.mp h with hskip | ⟨rest, rfl, hrest⟩
    · exact (ih hl hskip).cons x
    · exact (ih hl.of_cons hrest).cons_cons x

theorem IsGrouped.add (h : IsGrouped fs) (name value : Bytes) :
    IsGrouped (Fields.add name value fs) := by
  by_cases hname : name ∈ names fs
  · intro m n hsub
    obtain ⟨front, back, hbefore, hafter⟩ := names_add_of_mem hname value
    rw [hafter] at hsub
    by_contra hne
    -- two different names in turns do not meet the field that was put in behind one of its name
    have hchain : [m, n, m].IsChain (· ≠ ·) := by simp [Ne.symm hne, hne]
    exact hne (h m n (hbefore ▸ sublist_of_stutter hchain hsub))
  · rw [add_of_not_mem hname]
    exact h.concat hname value

/-- **The fields of a header are grouped**, whatever pairs it is made of. -/
theorem isGrouped_of_ofPairs? {pairs : List (Bytes × Bytes)} {start : Fields}
    (hstart : IsGrouped start) (h : ofPairs? pairs start = .ok fs) : IsGrouped fs := by
  induction pairs generalizing start with
  | nil =>
    obtain rfl := Except.ok.inj h
    exact hstart
  | cons p pairs ih =>
    rw [ofPairs?, List.foldlM_cons] at h
    split at h
    · cases h
    · split at h
      · cases h
      · exact ih (hstart.add _ _) h

/-! ## 3. Isolating -/

/-- The names of the isolation headers. -/
def isolationNames : List Bytes := isolationFields.map (·.1)

theorem mem_isolationNames {f : Field} (h : f ∈ isolationFields) : f.1 ∈ isolationNames :=
  List.mem_map_of_mem h

theorem without_isolate (fs : Fields) :
    without isolationNames fs.isolate = without isolationNames fs := by
  refine isolate_induction (P := fun acc => without isolationNames acc = without isolationNames fs)
    rfl ?_
  intro f hf acc hacc
  rw [without_set (mem_isolationNames hf), hacc]

theorem IsGrouped.isolate (h : IsGrouped fs) : IsGrouped fs.isolate :=
  isolate_induction h fun f _ _ hacc => hacc.set f.1 f.2

/-- Isolated fields are isolated already. -/
theorem IsIsolated.isolate_eq (h : IsIsolated fs) : fs.isolate = fs := by
  refine isolate_induction (P := fun acc => acc = fs) rfl ?_
  rintro f hf acc rfl
  exact set_eq_self (h f hf)

/-- `after` is `before` with the isolation headers, and with nothing else added, taken away or
moved. -/
structure IsolatesOnly (before after : Fields) : Prop where
  isolated : IsIsolated after
  others : ∀ name, name ∉ isolationNames → valuesOf name after = valuesOf name before
  order : without isolationNames after = without isolationNames before
  grouped : IsGrouped before → IsGrouped after
  again : after.isolate = after

theorem isolatesOnly_isolate (fs : Fields) : IsolatesOnly fs fs.isolate := by
  constructor
  · exact isIsolated_isolate fs
  · intro name hname
    refine valuesOf_isolate_of_ne (fun f hf heq => hname ?_) fs
    exact heq ▸ mem_isolationNames hf
  · exact without_isolate fs
  · exact fun h => h.isolate
  · exact (isIsolated_isolate fs).isolate_eq

end Http.Fields

namespace OpenSite

open Http.Fields

/-- An answer `outer` is `inner` with the isolation headers; the request is dropped in both or in
neither, and the same notices are given. -/
structure Reply.IsolatesOnly (inner outer : Reply) : Prop where
  status : outer.response.map Http.Response.status = inner.response.map Http.Response.status
  body : outer.response.map Http.Response.body = inner.response.map Http.Response.body
  fields : ∀ r ∈ inner.response, ∀ r' ∈ outer.response, r.fields.IsolatesOnly r'.fields
  notices : outer.notices = inner.notices

theorem isolatesOnly_answer (site : OpenSite) (t : Files.Tree) (who : Files.Caller)
    (q : Site.Request) : (site.handle t who q).IsolatesOnly (site.answer t who q) := by
  constructor
  · exact Option.map_map _ _ _
  · exact Option.map_map _ _ _
  · intro r hr r' hr'
    rw [answer, Option.mem_def.mp hr] at hr'
    obtain rfl := Option.some.inj hr'
    exact isolatesOnly_isolate r.fields
  · rfl

/-- **Isolating changes nothing else.**  Whatever fields there are, under any names and any number
of times, each isolation header is there once afterwards with its value; the other names keep all
their values; the other fields are the same list; values of a name that stood together still do, as
they do in every header that is put together; and once is enough.  So the answer to a request has
the status and the body that it had before. -/
theorem isolation_changes_nothing_else :
    (∀ fs : Http.Fields, fs.IsolatesOnly fs.isolate) ∧
    (∀ pairs fs, ofPairs? pairs [] = .ok fs → IsGrouped fs) ∧
    ∀ (site : OpenSite) (t : Files.Tree) (who : Files.Caller) (q : Site.Request),
      (site.handle t who q).IsolatesOnly (site.answer t who q) := by
  have hempty : IsGrouped [] := fun m n hsub => by cases hsub
  exact ⟨isolatesOnly_isolate, fun _ _ h => isGrouped_of_ofPairs? hempty h, isolatesOnly_answer⟩

/-- Two values of an isolation header and two of another one, in turns. -/
def mixedPairs : List (Bytes × Bytes) :=
  [(ascii "Vary", ascii "a"), (ascii "Cross-Origin-Opener-Policy", ascii "unsafe-none"),
   (ascii "vary", ascii "b"), (ascii "cross-origin-opener-policy", ascii "same-origin"),
   (ascii "Server", ascii "s")]

/-- The isolation header keeps its place and loses its values; the two others are added. -/
theorem mixedPairs_isolated :
    ∃ fs, ofPairs? mixedPairs [] = .ok fs ∧ IsGrouped fs ∧ fs.IsolatesOnly fs.isolate ∧
      fs.isolate =
        [(ascii "vary", ascii "a"), (ascii "vary", ascii "b"),
         (ascii "cross-origin-opener-policy", ascii "same-origin"), (ascii "server", ascii "s"),
         (ascii "cross-origin-embedder-policy", ascii "require-corp"),
         (ascii "cross-origin-resource-policy", ascii "cross-origin")] := by
  obtain ⟨hall, hgrouped, -⟩ := isolation_changes_nothing_else
  have hpairs : ofPairs? mixedPairs [] = .ok
      [(ascii "vary", ascii "a"), (ascii "vary", ascii "b"),
       (ascii "cross-origin-opener-policy", ascii "unsafe-none"),
       (ascii "cross-origin-opener-policy", ascii "same-origin"),
       (ascii "server", ascii "s")] := by decide +kernel
  exact ⟨_, hpairs, hgrouped _ _ hpairs, hall _, by decide +kernel⟩

end OpenSite

end IsolatedSite
