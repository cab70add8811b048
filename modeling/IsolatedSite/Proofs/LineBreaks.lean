/-
# Line breaks in texts and paths

A line feed or carriage return is in a text exactly if its octet is in the octets of the text, and
is read of octets exactly where it stands.  Three things follow about what may hold one:

* a request target never does (`isOneLine_of_parse?`), but the path that it is decoded to may, and
  then so does the file path that it is translated to (`isOneLine_of_translate?`);
* a path that leads to something in a tree does not if no name in the tree does: all its names were
  found there (`isOneLine_of_locate`);
* the same is true of the canonical path of what is found (`isOneLine_of_canonical`).
-/
import IsolatedSite.Proofs.Targets
import IsolatedSite.Proofs.UrlPaths

namespace IsolatedSite

/-! ## 1. Texts and octets -/

/-- A text without a line break. -/
def Text.IsOneLine (t : Text) : Prop := ∀ c ∈ t, c ≠ '\n' ∧ c ≠ '\r'

-- by the list, and not by going through all characters
instance (t : Text) : Decidable (Text.IsOneLine t) :=
  List.decidableBAll (fun c => c ≠ '\n' ∧ c ≠ '\r') t

/-- A path without a line break. -/
def Path.IsOneLine (p : Path) : Prop := ∀ b ∈ p, b ≠ Byte.lf ∧ b ≠ Byte.cr

instance (p : Path) : Decidable (Path.IsOneLine p) :=
  List.decidableBAll (fun b => b ≠ Byte.lf ∧ b ≠ Byte.cr) p

theorem forall_mem_ne_iff {α : Type} {x y : α} {xs : List α} :
    (∀ z ∈ xs, z ≠ x ∧ z ≠ y) ↔ x ∉ xs ∧ y ∉ xs := by
  constructor
  · intro h
    exact ⟨fun hx => (h x hx).1 rfl, fun hy => (h y hy).2 rfl⟩
  · rintro ⟨hx, hy⟩ z hz
    exact ⟨ne_of_mem_of_not_mem hz hx, ne_of_mem_of_not_mem hz hy⟩

theorem Text.isOneLine_append {s t : Text} :
    IsOneLine (s ++ t) ↔ IsOneLine s ∧ IsOneLine t := List.forall_mem_append

theorem Text.IsOneLine.append {s t : Text} (hs : IsOneLine s) (ht : IsOneLine t) :
    IsOneLine (s ++ t) := isOneLine_append.mpr ⟨hs, ht⟩

theorem Text.IsPlain.isOneLine {t : Text} (h : IsPlain t) : IsOneLine t := by
  intro c hc
  have hlow := (h c hc).1
  constructor
  · rintro rfl
    exact absurd hlow (by decide)
  · rintro rfl
    exact absurd hlow (by decide)

namespace Path

theorem isOneLine_append {p q : Path} : IsOneLine (p ++ q) ↔ IsOneLine p ∧ IsOneLine q :=
  List.forall_mem_append

theorem isOneLine_encode {t : Text} : IsOneLine (Utf8.encode t) ↔ Text.IsOneLine t := by
  have hlf := Utf8.mem_encode_iff (b := Byte.lf) (by decide) (t := t)
  have hcr := Utf8.mem_encode_iff (b := Byte.cr) (by decide) (t := t)
  exact forall_mem_ne_iff.trans
    ((and_congr (not_congr hlf) (not_congr hcr)).trans forall_mem_ne_iff.symm)

/-- **What is shown of a path** has the line breaks of the path, well formed or not. -/
theorem isOneLine_decodeLossy {p : Path} :
    Text.IsOneLine (Utf8.decodeLossy p) ↔ IsOneLine p := by
  have hlf := Utf8.mem_decodeLossy_iff (x := Byte.lf) (by decide) (by decide) (b := p)
  have hcr := Utf8.mem_decodeLossy_iff (x := Byte.cr) (by decide) (by decide) (b := p)
  exact forall_mem_ne_iff.trans
    ((and_congr (not_congr hlf) (not_congr hcr)).trans forall_mem_ne_iff.symm)

end Path

/-! ## 2. Request targets -/

/-- **A request target** holds no line break: no octet of a line break may stand in a path. -/
theorem Http.Target.isOneLine_of_parse? {b : Bytes} {target : Target}
    (h : parse? b = some target) : Text.IsOneLine target.path := by
  have hpath := (isWellFormed_of_parse? h).path
  rw [← Path.isOneLine_encode]
  intro x hx
  constructor
  · rintro rfl
    exact absurd (hpath _ hx) (by decide)
  · rintro rfl
    exact absurd (hpath _ hx) (by decide)

namespace Path

/-! ## 3. Pieces -/

theorem isOneLine_join {p q : Path} (hq : isAbsolute q = false) :
    IsOneLine (join p q) ↔ IsOneLine p ∧ IsOneLine q := by
  have hgap : IsOneLine (gap p) := by
    unfold gap
    split <;> decide
  rw [join_of_not_isAbsolute p hq, isOneLine_append, isOneLine_append]
  simp [hgap]

/-- The induction is on the names that are joined, of which none starts at the root. -/
theorem isOneLine_joinAll {p : Path} {qs : List Path} (hqs : ∀ q ∈ qs, isAbsolute q = false) :
    IsOneLine (joinAll p qs) ↔ IsOneLine p ∧ ∀ q ∈ qs, IsOneLine q := by
  induction qs generalizing p with
  | nil => simp [joinAll]
  | cons q qs ih =>
    rw [joinAll, join_joinAll, ih fun r hr => hqs r (List.mem_cons_of_mem _ hr),
      isOneLine_join (hqs q List.mem_cons_self), List.forall_mem_cons, and_assoc]

end Path

namespace Site

theorem isOneLine_of_isDropped {piece : Text} (h : isDropped piece = true) :
    Text.IsOneLine piece := by
  simp only [isDropped, Bool.or_eq_true, beq_iff_eq] at h
  rcases h with (rfl | rfl) | rfl <;> decide

/-- The pieces that are kept have the line breaks of the text, since those that are dropped have
none. -/
theorem isOneLine_iff_segments (p : Text) :
    (∀ piece ∈ segments p, Text.IsOneLine piece) ↔ Text.IsOneLine (Percent.decodeText p) := by
  rw [Text.IsOneLine, ← forall_mem_splitAtEach_iff '/' (by decide)]
  constructor
  · intro h piece hpiece
    by_cases hdropped : isDropped piece = true
    · exact isOneLine_of_isDropped hdropped
    · exact h piece (List.mem_filter.mpr ⟨hpiece, by simp [hdropped]⟩)
  · intro h piece hpiece
    exact h piece (List.mem_filter.mp hpiece).1

/-- A piece does not start at the root. -/
theorem isAbsolute_encode_of_mem_segments {p piece : Text} (h : piece ∈ segments p) :
    Path.isAbsolute (Utf8.encode piece) = false := by
  have hslash := Files.not_mem_of_mem_splitAtEach (List.mem_filter.mp h).1
  by_contra habsolute
  have hhead : (Utf8.encode piece).head? = some Path.slash := by
    simpa [Path.isAbsolute] using habsolute
  exact hslash ((Utf8.mem_encode_iff (by decide)).mp (List.mem_of_head? hhead))

/-- **The line breaks of a translated path** are those of the decoded URL path. -/
theorem isOneLine_of_translate? {root target : Path} {p : Text} (hroot : Path.IsOneLine root)
    (h : translate? root p = some target) :
    Path.IsOneLine target ↔ Text.IsOneLine (Percent.decodeText p) := by
  simp only [translate?] at h
  split at h
  · cases h
  · obtain rfl := Option.some.inj h
    have hrelative : ∀ q ∈ (segments p).map Utf8.encode, Path.isAbsolute q = false := by
      intro q hq
      obtain ⟨piece, hpiece, rfl⟩ := List.mem_map.mp hq
      exact isAbsolute_encode_of_mem_segments hpiece
    rw [Path.isOneLine_joinAll hrelative, ← isOneLine_iff_segments]
    simp [hroot, Path.isOneLine_encode]

end Site

/-! ## 4. Names in trees -/

namespace Files

/-- No name in a tree holds a line break. -/
def Tree.HasPlainNames (t : Tree) : Prop := ∀ n ∈ t.nodes, ∀ name ∈ n.1, Path.IsOneLine name

instance (t : Tree) : Decidable t.HasPlainNames :=
  List.decidableBAll (fun n : Location × Node => ∀ name ∈ n.1, Path.IsOneLine name) t.nodes

namespace Tree

variable {t : Tree} {who : Caller}

/-- What is there is in the list of the tree, or it is the root. -/
theorem HasPlainNames.isOneLine_of_find? (ht : t.HasPlainNames) {l : Location} {n : Node}
    (h : t.find? l = some n) : ∀ name ∈ l, Path.IsOneLine name := by
  unfold find? at h
  split at h
  · rename_i node hnode
    obtain ⟨before, behind, hsplit, -⟩ := List.lookup_eq_some_iff.mp hnode
    exact ht (l, node) (by simp [hsplit])
  · split at h
    · rename_i hnil
      simp [hnil]
    · cases h

/-- A step into a name without a line break, or any other step. -/
def Step.IsOneLine : Step → Prop
  | .into name => Path.IsOneLine name
  | _ => True

/-- The steps that are still to go where a run stopped. -/
def Stop.Leaves : Stop → Step → Prop
  | .found _, _ => False
  | .vacant _, _ => True
  | .link _ _ rest, s => s ∈ rest

/-- **Every name that a run goes into was found.**  The induction is on the steps. -/
theorem isOneLine_or_leaves_of_descend (ht : t.HasPlainNames) {l : Location} {steps : List Step}
    {stop : Stop} (h : t.descend who l steps = .ok stop) :
    ∀ s ∈ steps, s.IsOneLine ∨ stop.Leaves s := by
  induction steps generalizing l with
  | nil => simp
  | cons s rest ih =>
    rw [List.forall_mem_cons]
    obtain ⟨mode, -, ⟨hs, hrun⟩ | ⟨hs, hrun⟩ | ⟨name, rfl, hinto⟩⟩ := descend_cons h
    · refine ⟨Or.inl ?_, ih hrun⟩
      rcases hs with rfl | rfl <;> trivial
    · rw [hs]
      exact ⟨Or.inl trivial, ih hrun⟩
    · have hname : ∀ n, t.find? (l ++ [name]) = some n → Path.IsOneLine name := fun n hn =>
        ht.isOneLine_of_find? hn name (by simp)
      rcases hinto with ⟨target, htarget, rfl⟩ | ⟨-, rfl⟩ | ⟨n, hn, -, h⟩
      · exact ⟨Or.inl (hname _ htarget), fun s hs => Or.inr hs⟩
      · exact ⟨Or.inr trivial, fun s _ => Or.inr trivial⟩
      · exact ⟨Or.inl (hname n hn), ih h⟩

/-- The induction is on the links that may still be followed. -/
theorem isOneLine_of_resolve (ht : t.HasPlainNames) {links : Nat} {l l' : Location}
    {steps : List Step} (h : t.resolve who links l steps = .ok (.found l')) :
    ∀ s ∈ steps, s.IsOneLine := by
  induction links using Nat.strongRecOn generalizing l steps with
  | ind links ih =>
    intro s hs
    rcases resolve_cases h with hstop | ⟨folder, target, rest, fewer, hstop, rfl, hrun⟩
    · exact (isOneLine_or_leaves_of_descend ht hstop s hs).resolve_right id
    · rcases isOneLine_or_leaves_of_descend ht hstop s hs with hone | hleft
      · exact hone
      · exact ih fewer (Nat.lt_succ_self fewer) hrun s (List.mem_append_right _ hleft)

theorem isOneLine_of_isOneLine_stepOf {piece : Bytes} (h : (stepOf piece).IsOneLine) :
    Path.IsOneLine piece := by
  unfold stepOf at h
  split at h
  · rename_i hhere
    rw [hhere]
    decide
  · split at h
    · rename_i hup
      rw [hup]
      decide
    · exact h

/-- **A path that leads somewhere** holds no line break, since no name in the tree does. -/
theorem isOneLine_of_locate (ht : t.HasPlainNames) {cwd l : Location} {p : Path}
    (h : t.locate who cwd p = .ok l) : Path.IsOneLine p := by
  have hsteps := isOneLine_of_resolve ht (resolve_of_locate h).2
  rw [Path.IsOneLine, ← forall_mem_splitAtEach_iff Path.slash (by decide)]
  intro piece hpiece
  by_cases hnil : piece = []
  · rw [hnil]
    simp
  · refine isOneLine_of_isOneLine_stepOf (hsteps _ (List.mem_append_left _ ?_))
    exact List.mem_map_of_mem (List.mem_filter.mpr ⟨hpiece, by simpa using hnil⟩)

theorem isOneLine_of_stat (ht : t.HasPlainNames) {cwd : Location} {p : Path} {node : Node}
    (h : t.stat who cwd p = .ok node) : Path.IsOneLine p := by
  obtain ⟨l, hl, -⟩ := stat_eq_ok_iff.mp h
  exact isOneLine_of_locate ht hl

/-- **The path of what is there** holds no line break. -/
theorem isOneLine_of_canonical (ht : t.HasPlainNames) {p real : Path}
    (h : t.canonical who [] p = .ok real) : Path.IsOneLine real := by
  obtain ⟨l, hl, rfl⟩ := canonical_eq_ok_iff.mp h
  obtain ⟨n, hn, -⟩ := (locate_spec hl).2
  have hnames := ht.isOneLine_of_find? hn
  unfold pathOf
  split
  · decide
  · intro b hb
    obtain ⟨name, hname, hb⟩ := List.mem_flatMap.mp hb
    rcases List.mem_cons.mp hb with rfl | hb
    · decide
    · exact hnames name hname b hb

end Tree

end Files

end IsolatedSite
