/-
# What reads find, one after the other

What one read does to an incoming side is described first: it takes octets off the front, as many as
it has room for (`unread_of_read`, `length_le_of_read`), or it fails and takes none.  Then reads
follow one another: `held s n` is what is in hand after `n` of them, `after s n` what is left, and
`finds s n` what the next one finds.  What is in hand only grows, is always a beginning of what
comes in (`held_prefix`, `held_prefix_unread`), and is followed there by what is left
(`FindsAll.held_append_unread`).  What arrives behind all that is read makes no difference
(`after_append`, `finds_append`).
-/
import IsolatedSite.Connection.HeadReader
import Mathlib.Data.List.Basic

namespace IsolatedSite.Connection

variable {ε : Type}

namespace Incoming

/-! ## 1. One read -/

/-- Every read finds some octets, and none fails. -/
def IsPlain (s : Incoming ε) : Prop := ∀ a ∈ s, ∃ b : Bytes, b ≠ [] ∧ a = .octets b

/-- The incoming side on which given pieces arrive one after the other. -/
def ofPieces (pieces : List Bytes) : Incoming ε := pieces.map .octets

@[simp] theorem unread_nil : unread ([] : Incoming ε) = [] := rfl

@[simp] theorem unread_octets (b : Bytes) (s : Incoming ε) :
    unread (.octets b :: s) = b ++ unread s := rfl

@[simp] theorem weight_octets (b : Bytes) (s : Incoming ε) :
    weight (.octets b :: s) = b.length + 1 + weight s := rfl

theorem unread_ofPieces (pieces : List Bytes) :
    unread (ofPieces pieces : Incoming ε) = pieces.flatten := by
  induction pieces with
  | nil => rfl
  | cons p ps ih => simpa [ofPieces] using ih

theorem isPlain_ofPieces {pieces : List Bytes} (h : ∀ p ∈ pieces, p ≠ []) :
    IsPlain (ofPieces pieces : Incoming ε) := by
  intro a ha
  obtain ⟨p, hp, rfl⟩ := List.mem_map.mp ha
  exact ⟨p, h p hp, rfl⟩

theorem IsPlain.eq_octets_cons {a : Arrival ε} {s : Incoming ε} (h : IsPlain (a :: s)) :
    ∃ b : Bytes, b ≠ [] ∧ a = .octets b := h a (by simp)

theorem IsPlain.tail {a : Arrival ε} {s : Incoming ε} (h : IsPlain (a :: s)) : IsPlain s :=
  fun x hx => h x (by simp [hx])

theorem IsPlain.cons {b : Bytes} {s : Incoming ε} (hb : b ≠ []) (h : IsPlain s) :
    IsPlain (.octets b :: s) := by
  intro a ha
  rcases List.mem_cons.mp ha with rfl | ha
  · exact ⟨b, hb, rfl⟩
  · exact h a ha

theorem IsPlain.unread_eq_nil {s : Incoming ε} (h : IsPlain s) (hs : s.unread = []) : s = [] := by
  cases s with
  | nil => rfl
  | cons a s =>
    obtain ⟨b, hb, rfl⟩ := h.eq_octets_cons
    simp [hb] at hs

/-- A read takes octets off the front, also between failures. -/
theorem unread_of_read {n : Nat} {s rest : Incoming ε} {found : Bytes}
    (h : s.read n = (.ok found, rest)) : found ++ rest.unread = s.unread := by
  cases s with
  | nil =>
    cases h
    rfl
  | cons a s =>
    cases a with
    | failure e => cases h
    | octets b =>
      simp only [read, Prod.mk.injEq, Except.ok.injEq] at h
      obtain ⟨rfl, rfl⟩ := h
      by_cases hend : b = [] ∨ (b.drop n = [] ∧ 0 < n)
      · have htake : b.take n = b := by
          rcases hend with rfl | ⟨hdrop, -⟩
          · simp
          · rw [← List.append_nil (b.take n), ← hdrop, List.take_append_drop]
        rw [if_pos hend, htake]
        rfl
      · rw [if_neg hend, unread_octets, unread_octets, ← List.append_assoc,
          List.take_append_drop]

/-- A read that fails takes no octets away. -/
theorem unread_of_failure {n : Nat} {s rest : Incoming ε} {e : ε}
    (h : s.read n = (.error e, rest)) : rest.unread = s.unread := by
  cases s with
  | nil => cases h
  | cons a s =>
    cases a with
    | failure e' =>
      cases h
      rfl
    | octets b => cases h

/-- A read finds no more than it has room for. -/
theorem length_le_of_read {n : Nat} {s rest : Incoming ε} {found : Bytes}
    (h : s.read n = (.ok found, rest)) : found.length ≤ n := by
  cases s with
  | nil =>
    cases h
    simp
  | cons a s =>
    cases a with
    | failure e => cases h
    | octets b =>
      obtain rfl : b.take n = found := Except.ok.inj (congrArg Prod.fst h)
      exact List.length_take_le n b

/-- What a read takes off weighs nothing afterwards. -/
theorem weight_of_read {n : Nat} {s rest : Incoming ε} {found : Bytes}
    (h : s.read n = (.ok found, rest)) : rest.weight + found.length ≤ s.weight := by
  cases s with
  | nil =>
    cases h
    simp
  | cons a s =>
    cases a with
    | failure e => cases h
    | octets b =>
      simp only [read, Prod.mk.injEq, Except.ok.injEq] at h
      obtain ⟨rfl, rfl⟩ := h
      split
      · simp only [weight_octets, List.length_take]
        omega
      · simp only [weight_octets, List.length_take, List.length_drop]
        omega

/-- What one read does to a plain incoming side: it takes octets off its front, at most as many
as it has room for, and some if there are any and there is room. -/
structure TakesOff (n : Nat) (s : Incoming ε) (found : Bytes) (rest : Incoming ε) : Prop where
  isPlain : rest.IsPlain
  append_unread : found ++ rest.unread = s.unread
  length_le : found.length ≤ n
  ne_nil : 0 < n → s.unread ≠ [] → found ≠ []
  weight_le : rest.weight + found.length ≤ s.weight

theorem IsPlain.exists_takesOff {s : Incoming ε} (h : IsPlain s) (n : Nat) :
    ∃ found rest, s.read n = (.ok found, rest) ∧ TakesOff n s found rest := by
  cases s with
  | nil => exact ⟨[], [], rfl, ⟨h, rfl, by simp, by simp, by simp⟩⟩
  | cons a s =>
    obtain ⟨b, hb, rfl⟩ := h.eq_octets_cons
    have hpos : 0 < b.length := List.length_pos_iff.mpr hb
    have htake : 0 < n → b.take n ≠ [] := fun hn hnil => by
      have := congrArg List.length hnil
      simp only [List.length_take, List.length_nil] at this
      omega
    by_cases hall : b.drop n = [] ∧ 0 < n
    · have hread : read n (.octets b :: s) = (.ok (b.take n), s) := by simp [read, hb, hall]
      exact ⟨_, _, hread, h.tail, unread_of_read hread, length_le_of_read hread,
        fun hn _ => htake hn, weight_of_read hread⟩
    · have hleft : b.drop n ≠ [] := by
        intro hnil
        have hn : n = 0 := by
          by_contra hn
          exact hall ⟨hnil, Nat.pos_of_ne_zero hn⟩
        exact hb (by simpa [hn] using hnil)
      have hread : read n (.octets b :: s) = (.ok (b.take n), .octets (b.drop n) :: s) := by
        simp only [read, if_neg (not_or.mpr ⟨hb, hall⟩)]
      exact ⟨_, _, hread, h.tail.cons hleft, unread_of_read hread, length_le_of_read hread,
        fun hn _ => htake hn, weight_of_read hread⟩

/-! ## 2. What is in hand -/

/-- What is in hand after `n` reads. -/
def held : (s : Incoming ε) → (n : Nat) → Bytes
  | _, 0 => []
  | s, n + 1 => match s.read portion with
    | (.ok found, rest) => found ++ held rest n
    | (.error _, _) => []

@[simp] theorem held_zero (s : Incoming ε) : held s 0 = [] := rfl

theorem held_succ {s rest : Incoming ε} {found : Bytes} (h : s.read portion = (.ok found, rest))
    (n : Nat) : held s (n + 1) = found ++ held rest n := by
  rw [held, h]

theorem held_prefix_succ (s : Incoming ε) (n : Nat) : held s n <+: held s (n + 1) := by
  induction n generalizing s with
  | zero => exact List.nil_prefix
  | succ n ih =>
    rcases hread : s.read portion with ⟨e | found, rest⟩
    · simp [held, hread]
    · rw [held_succ hread, held_succ hread]
      exact (List.prefix_append_right_inj found).mpr (ih rest)

/-- Later reads only add to what is in hand. -/
theorem held_prefix (s : Incoming ε) {m n : Nat} (h : m ≤ n) : held s m <+: held s n := by
  induction h with
  | refl => exact List.prefix_refl _
  | step _ ih => exact ih.trans (held_prefix_succ s _)

/-- What is in hand is a beginning of what comes in. -/
theorem held_prefix_unread {s : Incoming ε} (hs : s.IsPlain) (n : Nat) :
    held s n <+: s.unread := by
  induction n generalizing s with
  | zero => exact List.nil_prefix
  | succ n ih =>
    obtain ⟨found, rest, hread, htaken⟩ := hs.exists_takesOff portion
    rw [held_succ hread, ← htaken.append_unread]
    exact (List.prefix_append_right_inj found).mpr (ih htaken.isPlain)

/-- Everything is in hand at last. -/
theorem exists_held_eq_unread {s : Incoming ε} (hs : s.IsPlain) : ∃ n, s.held n = s.unread := by
  by_cases hnil : s.unread = []
  · exact ⟨0, by rw [held_zero, hnil]⟩
  · obtain ⟨found, rest, hread, htaken⟩ := hs.exists_takesOff portion
    have hlt : rest.weight < s.weight := by
      have hle := htaken.weight_le
      have hpos := List.length_pos_iff.mpr (htaken.ne_nil (by decide) hnil)
      omega
    obtain ⟨n, hn⟩ := exists_held_eq_unread htaken.isPlain
    exact ⟨n + 1, by rw [held_succ hread, hn, htaken.append_unread]⟩
termination_by s.weight

/-- Behind what was found nothing is taken in hand but what the next read finds. -/
theorem length_held_succ_le (s : Incoming ε) (n : Nat) :
    (held s (n + 1)).length ≤ (held s n).length + portion := by
  induction n generalizing s with
  | zero =>
    rcases hread : s.read portion with ⟨e | found, rest⟩
    · simp [held, hread]
    · rw [held_succ hread, held_zero, held_zero, List.append_nil]
      have hle := length_le_of_read hread
      simpa using hle
  | succ n ih =>
    rcases hread : s.read portion with ⟨e | found, rest⟩
    · simp [held, hread]
    · rw [held_succ hread, held_succ hread, List.length_append, List.length_append]
      have hle := ih rest
      omega

/-! ## 3. One read after the other -/

/-- What is left after `n` reads. -/
def after : (s : Incoming ε) → (n : Nat) → Incoming ε
  | s, 0 => s
  | s, n + 1 => after (s.read portion).2 n

/-- What read `n` finds, the first one being read 0. -/
def finds (s : Incoming ε) (n : Nat) : Except ε Bytes := ((s.after n).read portion).1

@[simp] theorem after_zero (s : Incoming ε) : after s 0 = s := rfl

theorem after_succ {s rest : Incoming ε} {found : Except ε Bytes}
    (h : s.read portion = (found, rest)) (n : Nat) : after s (n + 1) = after rest n := by
  rw [after, h]

theorem after_succ_eq (s : Incoming ε) (n : Nat) :
    after s (n + 1) = ((after s n).read portion).2 := by
  induction n generalizing s with
  | zero => rfl
  | succ n ih => exact ih (s.read portion).2

theorem finds_zero {s rest : Incoming ε} {found : Except ε Bytes}
    (h : s.read portion = (found, rest)) : finds s 0 = found := by
  rw [finds, after_zero, h]

theorem finds_succ {s rest : Incoming ε} {found : Except ε Bytes}
    (h : s.read portion = (found, rest)) (n : Nat) : finds s (n + 1) = finds rest n := by
  rw [finds, finds, after_succ h]

/-- The first `n` reads find something each. -/
def FindsAll (s : Incoming ε) (n : Nat) : Prop :=
  ∀ m < n, ∃ found, s.finds m = .ok found ∧ found ≠ []

/-- What a first read that finds something is, and what is left to find. -/
theorem FindsAll.exists_read {s : Incoming ε} {n : Nat} (h : s.FindsAll (n + 1)) :
    ∃ found rest, s.read portion = (.ok found, rest) ∧ found ≠ [] ∧ rest.FindsAll n := by
  obtain ⟨found, hfound, hne⟩ := h 0 n.succ_pos
  rcases hread : s.read portion with ⟨found', rest⟩
  rw [finds_zero hread] at hfound
  refine ⟨found, rest, by rw [hfound], hne, fun m hm => ?_⟩
  rw [← finds_succ hread]
  exact h (m + 1) (Nat.succ_lt_succ hm)

theorem FindsAll.succ {s rest : Incoming ε} {found : Bytes} {n : Nat}
    (hread : s.read portion = (.ok found, rest)) (hne : found ≠ []) (h : rest.FindsAll n) :
    s.FindsAll (n + 1) := by
  intro m hm
  cases m with
  | zero => exact ⟨found, finds_zero hread, hne⟩
  | succ m =>
    rw [finds_succ hread]
    exact h m (Nat.lt_of_succ_lt_succ hm)

/-- Every read that finds something leaves at least one octet in hand. -/
theorem FindsAll.le_length_held {s : Incoming ε} {n : Nat} (h : s.FindsAll n) :
    n ≤ (s.held n).length := by
  induction n generalizing s with
  | zero => exact Nat.zero_le _
  | succ n ih =>
    obtain ⟨found, rest, hread, hne, hrest⟩ := h.exists_read
    rw [held_succ hread, List.length_append]
    have hle := ih hrest
    have hpos := List.length_pos_iff.mpr hne
    omega

/-- What one more read finds is taken in hand behind the rest. -/
theorem FindsAll.held_succ_eq {s : Incoming ε} {n : Nat} {found : Bytes} (h : s.FindsAll n)
    (hfound : s.finds n = .ok found) : s.held (n + 1) = s.held n ++ found := by
  induction n generalizing s with
  | zero =>
    rcases hread : s.read portion with ⟨found', rest⟩
    obtain rfl : found' = .ok found := by rw [← hfound, finds_zero hread]
    rw [held_succ hread, held_zero, held_zero, List.append_nil, List.nil_append]
  | succ n ih =>
    obtain ⟨first, rest, hread, -, hrest⟩ := h.exists_read
    rw [finds_succ hread] at hfound
    rw [held_succ hread, held_succ hread, List.append_assoc, ih hrest hfound]

/-- **No octet is lost and none is read twice**, whatever the last read finds. -/
theorem FindsAll.held_append_unread {s : Incoming ε} {n : Nat} (h : s.FindsAll n) :
    s.held (n + 1) ++ (s.after (n + 1)).unread = s.unread := by
  induction n generalizing s with
  | zero =>
    rcases hread : s.read portion with ⟨e | found, rest⟩
    · rw [after_succ hread, after_zero, unread_of_failure hread]
      simp [held, hread]
    · rw [held_succ hread, held_zero, List.append_nil, after_succ hread, after_zero,
        unread_of_read hread]
  | succ n ih =>
    obtain ⟨found, rest, hread, -, hrest⟩ := h.exists_read
    rw [held_succ hread, after_succ hread, List.append_assoc, ih hrest, unread_of_read hread]

/-- What is left of a plain incoming side is plain. -/
theorem IsPlain.after {s : Incoming ε} (h : s.IsPlain) (n : Nat) : (s.after n).IsPlain := by
  induction n generalizing s with
  | zero => exact h
  | succ n ih =>
    obtain ⟨found, rest, hread, htaken⟩ := h.exists_takesOff portion
    rw [after_succ hread]
    exact ih htaken.isPlain

/-- **A plain incoming side** never fails, and is at its end where a read finds nothing. -/
theorem IsPlain.finds_cases {s : Incoming ε} (h : s.IsPlain) (n : Nat) :
    ∃ found, s.finds n = .ok found ∧ (found = [] → s.after (n + 1) = []) := by
  obtain ⟨found, rest, hread, htaken⟩ := (h.after n).exists_takesOff portion
  refine ⟨found, by rw [finds, hread], fun hnil => ?_⟩
  have hend : (s.after n).unread = [] := by
    by_contra hne
    exact htaken.ne_nil (by decide) hne hnil
  rw [after_succ_eq, hread]
  have happend := htaken.append_unread
  rw [hnil, hend, List.nil_append] at happend
  exact htaken.isPlain.unread_eq_nil happend

/-! ## 4. More arrivals behind -/

theorem read_append (n : Nat) {s : Incoming ε} (hs : s ≠ []) (t : Incoming ε) :
    read n (s ++ t) = ((read n s).1, (read n s).2 ++ t) := by
  cases s with
  | nil => exact absurd rfl hs
  | cons a s =>
    cases a with
    | failure e => rfl
    | octets b =>
      simp only [List.cons_append, read, Prod.mk.injEq, true_and]
      split <;> rfl

/-- A read uses up one arrival at most. -/
theorem length_le_read (n : Nat) (s : Incoming ε) : s.length ≤ (read n s).2.length + 1 := by
  cases s with
  | nil => exact Nat.zero_le _
  | cons a s =>
    cases a with
    | failure e => exact Nat.le_refl _
    | octets b =>
      simp only [read]
      split
      · exact Nat.le_refl _
      · exact Nat.le_succ _

/-- What the reads up to the last arrival do is the same with more arrivals behind it. -/
theorem after_append (t : Incoming ε) {s : Incoming ε} {n : Nat} (h : n ≤ s.length) :
    after (s ++ t) n = after s n ++ t ∧ held (s ++ t) n = held s n := by
  induction n generalizing s with
  | zero => exact ⟨rfl, rfl⟩
  | succ n ih =>
    have hs : s ≠ [] := List.ne_nil_of_length_pos (Nat.lt_of_lt_of_le n.succ_pos h)
    have hlen := length_le_read portion s
    rcases hread : s.read portion with ⟨found, rest⟩
    have happend : read portion (s ++ t) = (found, rest ++ t) := by rw [read_append _ hs, hread]
    have hrest : n ≤ rest.length := by
      rw [hread] at hlen
      exact Nat.le_of_succ_le_succ (Nat.le_trans h hlen)
    rw [after_succ happend, after_succ hread]
    refine ⟨(ih hrest).1, ?_⟩
    cases found with
    | error e => simp [held, hread, happend]
    | ok found => rw [held_succ happend, held_succ hread, (ih hrest).2]

/-- Reads use up one arrival each at most. -/
theorem length_le_after (s : Incoming ε) (n : Nat) : s.length ≤ (after s n).length + n := by
  induction n generalizing s with
  | zero => exact Nat.le_refl _
  | succ n ih =>
    have hread := length_le_read portion s
    have hrest := ih (s.read portion).2
    rw [after]
    omega

/-- A read that an arrival answers is answered so with more behind it, too. -/
theorem finds_append (t : Incoming ε) {s : Incoming ε} {n : Nat} (h : n < s.length) :
    finds (s ++ t) n = finds s n := by
  have hne : s.after n ≠ [] := by
    have hlen := length_le_after s n
    exact List.ne_nil_of_length_pos (by omega)
  rw [finds, (after_append t (Nat.le_of_lt h)).1, read_append _ hne, finds]

end Incoming

/-! ## 5. Octets in pieces -/

/-- Pieces that make up `b`, none of them empty. -/
def IsCut (pieces : List Bytes) (b : Bytes) : Prop := pieces.flatten = b ∧ ∀ p ∈ pieces, p ≠ []

namespace IsCut

variable {cut : List Bytes} {b : Bytes}

theorem unread_eq (h : IsCut cut b) : (Incoming.ofPieces cut : Incoming ε).unread = b := by
  rw [Incoming.unread_ofPieces, h.1]

theorem isPlain (h : IsCut cut b) : (Incoming.ofPieces cut : Incoming ε).IsPlain :=
  Incoming.isPlain_ofPieces h.2

theorem cons {p : Bytes} (hp : p ≠ []) (h : IsCut cut b) : IsCut (p :: cut) (p ++ b) :=
  ⟨by rw [List.flatten_cons, h.1], List.forall_mem_cons.mpr ⟨hp, h.2⟩⟩

end IsCut

theorem exists_isCut (b : Bytes) : ∃ cut, IsCut cut b := by
  by_cases hb : b = []
  · exact ⟨[], by simp [IsCut, hb]⟩
  · exact ⟨[b], by simp [IsCut, hb]⟩

end IsolatedSite.Connection
