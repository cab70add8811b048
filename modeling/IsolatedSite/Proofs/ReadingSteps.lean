/-
# Reading a head, read by read

The reading stops with the first read after which what is in hand settles it, by a verdict or by its
length (`Settles`), or with a read that finds no octets.  `Course` says so, read by read: which
reads are made, that nothing settles it before the last of them, what the last one finds, and what
is left untouched.  Every reading takes such a course (`readHead_course`), and what comes in decides
which (`Course.unique`).

Where every read finds octets, what is in hand when it is settled is all that the outcome depends on
(`readHead_stops`).  So an outcome that only a verdict can lead to tells which read it was
(`readHead_rejected_iff`).
-/
import IsolatedSite.Proofs.Arrivals

namespace IsolatedSite.Connection

open IsolatedSite.Http

variable {ε : Type}

/-! ## 1. What settles a reading -/

/-- What is in hand ends the reading: there is a verdict, or it is too long. -/
def Settles (b : Bytes) : Prop := Head.verdict? b ≠ none ∨ maxHead ≤ b.length

/-- What reading ends with when `b` settles it. -/
def judgement (b : Bytes) : HeadOutcome ε :=
  match Head.verdict? b with
  | some (.ok _) => .complete b
  | some (.error why) => .rejected why
  | none => .rejected .tooLong

/-- Nothing has no verdict. -/
theorem verdict?_nil : Head.verdict? [] = none := rfl

theorem not_settles_nil : ¬ Settles [] := by
  rintro (h | h)
  · exact h verdict?_nil
  · exact absurd h (by decide)

/-- One round of the loop, once something was found. -/
theorem readHeadFrom_of_found (fuel : Nat) (seen : Bytes) {found : Bytes} {s rest : Incoming ε}
    (hread : s.read portion = (.ok found, rest)) (hne : found ≠ []) :
    (Settles (seen ++ found) ∧
        readHeadFrom (fuel + 1) seen s = (judgement (seen ++ found), rest)) ∨
      (¬ Settles (seen ++ found) ∧
        readHeadFrom (fuel + 1) seen s = readHeadFrom fuel (seen ++ found) rest) := by
  obtain ⟨x, xs, rfl⟩ := List.exists_cons_of_ne_nil hne
  cases hv : Head.verdict? (seen ++ x :: xs) with
  | some v =>
    refine Or.inl ⟨Or.inl (by simp [hv]), ?_⟩
    cases v <;> simp only [readHeadFrom, hread, hv, judgement]
  | none =>
    by_cases hmax : maxHead ≤ (seen ++ x :: xs).length
    · refine Or.inl ⟨Or.inr hmax, ?_⟩
      simp only [readHeadFrom, hread, hv, if_pos hmax, judgement]
    · refine Or.inr ⟨?_, ?_⟩
      · rintro (h | h)
        · exact h hv
        · exact hmax h
      · simp only [readHeadFrom, hread, hv, if_neg hmax]

/-! ## 2. The course of a reading -/

/-- How the last read brings about an outcome, `inHand` being in hand before it. -/
inductive LastRead (inHand : Bytes) : (found : Except ε Bytes) → HeadOutcome ε → Prop
  | failed (e : ε) : LastRead inHand (.error e) (.failed e)
  | silent : inHand = [] → LastRead inHand (.ok []) .closed
  | cutOff : inHand ≠ [] → LastRead inHand (.ok []) (.rejected .malformed)
  | settled {found : Bytes} : found ≠ [] → Settles (inHand ++ found) →
      LastRead inHand (.ok found) (judgement (inHand ++ found))

/-- A reading in `n + 1` reads, `seen` being in hand before the first one.  Nothing settles it
before the last read, and after that one nothing is read any more. -/
structure Course (seen : Bytes) (s : Incoming ε) (n : Nat) (outcome : HeadOutcome ε)
    (rest : Incoming ε) : Prop where
  finds_all : s.FindsAll n
  unsettled : ∀ m ≤ n, ¬ Settles (seen ++ s.held m)
  last : LastRead (seen ++ s.held n) (s.finds n) outcome
  rest_eq : rest = s.after (n + 1)

/-- The reading ends with its first read. -/
theorem Course.of_first {seen : Bytes} {s rest : Incoming ε} {found : Except ε Bytes}
    {outcome : HeadOutcome ε} (hread : s.read portion = (found, rest)) (hseen : ¬ Settles seen)
    (hlast : LastRead seen found outcome) : Course seen s 0 outcome rest where
  finds_all m hm := absurd hm m.not_lt_zero
  unsettled m hm := by
    obtain rfl := Nat.le_zero.mp hm
    simpa using hseen
  last := by simpa [Incoming.finds_zero hread] using hlast
  rest_eq := by rw [Incoming.after_succ hread, Incoming.after_zero]

/-- **Step lemma**: one more read in front that finds something and settles nothing. -/
theorem Course.succ {seen found : Bytes} {s rest left : Incoming ε} {n : Nat}
    {outcome : HeadOutcome ε} (hread : s.read portion = (.ok found, rest)) (hne : found ≠ [])
    (hseen : ¬ Settles seen) (h : Course (seen ++ found) rest n outcome left) :
    Course seen s (n + 1) outcome left where
  finds_all := h.finds_all.succ hread hne
  unsettled m hm := by
    cases m with
    | zero => simpa using hseen
    | succ m =>
      rw [Incoming.held_succ hread, ← List.append_assoc]
      exact h.unsettled m (Nat.le_of_succ_le_succ hm)
  last := by
    rw [Incoming.held_succ hread, ← List.append_assoc, Incoming.finds_succ hread]
    exact h.last
  rest_eq := by rw [Incoming.after_succ hread, h.rest_eq]

/-- The outcome when nothing more comes in. -/
theorem lastRead_of_nothing (seen : Bytes) : LastRead (ε := ε) seen (.ok [])
    (if seen = [] then .closed else .rejected .malformed) := by
  by_cases h : seen = []
  · rw [if_pos h]
    exact .silent h
  · rw [if_neg h]
    exact .cutOff h

/-- **Run lemma**, `seen` having been read without settling it.  The induction is on the fuel, and
the weight of what is left stays below it, also when reads fail. -/
theorem readHeadFrom_course : ∀ (fuel : Nat) (seen : Bytes) (s : Incoming ε),
    s.weight < fuel → ¬ Settles seen →
      ∃ n, Course seen s n (readHeadFrom fuel seen s).1 (readHeadFrom fuel seen s).2
  | 0, _, s, hw, _ => absurd hw (Nat.not_lt_zero _)
  | fuel + 1, seen, s, hw, hseen => by
    rcases hread : s.read portion with ⟨e | found, rest⟩
    · have hrun : readHeadFrom (fuel + 1) seen s = (.failed e, rest) := by
        simp only [readHeadFrom, hread]
      rw [hrun]
      exact ⟨0, .of_first hread hseen (.failed e)⟩
    · by_cases hfound : found = []
      · subst hfound
        have hrun : readHeadFrom (fuel + 1) seen s =
            (if seen = [] then .closed else .rejected .malformed, rest) := by
          simp only [readHeadFrom, hread]
        rw [hrun]
        exact ⟨0, .of_first hread hseen (lastRead_of_nothing seen)⟩
      · rcases readHeadFrom_of_found fuel seen hread hfound with
          ⟨hsettles, hrun⟩ | ⟨hopen, hrun⟩
        · rw [hrun]
          exact ⟨0, .of_first hread hseen (.settled hfound hsettles)⟩
        · have hweight : rest.weight < fuel := by
            have hle := Incoming.weight_of_read hread
            have hpos := List.length_pos_iff.mpr hfound
            omega
          obtain ⟨n, hcourse⟩ := readHeadFrom_course fuel (seen ++ found) rest hweight hopen
          rw [hrun]
          exact ⟨n + 1, hcourse.succ hread hfound hseen⟩

/-- Reading a head takes its course, whatever comes in. -/
theorem readHead_course (s : Incoming ε) : ∃ n, Course [] s n (readHead s).1 (readHead s).2 :=
  readHeadFrom_course (s.weight + 1) [] s (Nat.lt_succ_self _) not_settles_nil

/-! ## 3. There is one course -/

section

variable {s rest rest' : Incoming ε} {n n' : Nat} {outcome outcome' : HeadOutcome ε}

/-- One course goes on no longer than another: what its next read finds would leave the matter open,
whereas it is the last read of the other one. -/
theorem Course.not_lt (h : Course [] s n outcome rest) (h' : Course [] s n' outcome' rest') :
    ¬ n < n' := by
  intro hlt
  obtain ⟨found, hfound, hne⟩ := h'.finds_all n hlt
  have hopen : ¬ Settles (s.held n ++ found) := by
    rw [← h.finds_all.held_succ_eq hfound]
    exact h'.unsettled (n + 1) hlt
  have hlast := h.last
  rw [hfound] at hlast
  cases hlast with
  | silent hnil => exact hne rfl
  | cutOff hnil => exact hne rfl
  | settled hfound hsettles => exact hopen hsettles

/-- A last read has one outcome. -/
theorem LastRead.unique {inHand : Bytes} {found : Except ε Bytes}
    (h : LastRead inHand found outcome) (h' : LastRead inHand found outcome') :
    outcome = outcome' := by
  cases h with
  | failed e =>
    cases h'
    rfl
  | silent hnil =>
    cases h' with
    | silent => rfl
    | cutOff hne => exact absurd hnil hne
    | settled hne => exact absurd rfl hne
  | cutOff hne =>
    cases h' with
    | silent hnil => exact absurd hnil hne
    | cutOff => rfl
    | settled hne => exact absurd rfl hne
  | settled hne hsettles =>
    cases h' with
    | silent => exact absurd rfl hne
    | cutOff => exact absurd rfl hne
    | settled => rfl

/-- **What comes in decides the course.** -/
theorem Course.unique (h : Course [] s n outcome rest) (h' : Course [] s n' outcome' rest') :
    n = n' ∧ outcome = outcome' ∧ rest = rest' := by
  obtain rfl : n = n' :=
    Nat.le_antisymm (Nat.le_of_not_lt (h'.not_lt h)) (Nat.le_of_not_lt (h.not_lt h'))
  exact ⟨rfl, h.last.unique h'.last, h.rest_eq.trans h'.rest_eq.symm⟩

end

/-! ## 4. The read that settles it -/

/-- `n` is the first number of reads after which what is in hand settles the reading. -/
structure StopsAt (s : Incoming ε) (n : Nat) : Prop where
  settles : Settles (s.held n)
  earlier : ∀ m < n, ¬ Settles (s.held m)

/-- **Reading stops with the first beginning that settles it**, if one does.  If none does, the
octets come to an end before. -/
theorem readHead_stops {s : Incoming ε} (hs : s.IsPlain) :
    (∃ n, StopsAt s n ∧ (readHead s).1 = judgement (s.held n)) ∨
      ((∀ n, ¬ Settles (s.held n)) ∧
        (readHead s).1 = if s.unread = [] then .closed else .rejected .malformed) := by
  obtain ⟨n, hcourse⟩ := readHead_course s
  obtain ⟨found, hfinds, hend⟩ := hs.finds_cases n
  have hopen : ∀ m ≤ n, ¬ Settles (s.held m) := hcourse.unsettled
  have hheld := hcourse.finds_all.held_succ_eq hfinds
  have hunread := hcourse.finds_all.held_append_unread
  have hlast : LastRead (s.held n) (s.finds n) (readHead s).1 := hcourse.last
  rw [hfinds] at hlast
  -- where nothing is found, all that came in is in hand, and stays so
  have hnever : found = [] → s.unread = s.held n ∧ ∀ m, ¬ Settles (s.held m) := by
    intro hnil
    rw [hend hnil, hheld, hnil, Incoming.unread_nil, List.append_nil, List.append_nil] at hunread
    refine ⟨hunread.symm, fun m => ?_⟩
    rcases Nat.le_total m n with hle | hle
    · exact hopen m hle
    · have hm := Incoming.held_prefix_unread hs m
      rw [← hunread] at hm
      rw [hm.eq_of_length_le (s.held_prefix hle).length_le]
      exact hopen n (Nat.le_refl n)
  generalize (readHead s).1 = outcome at hlast ⊢
  cases hlast with
  | silent hnil =>
    obtain ⟨hall, hopen⟩ := hnever rfl
    exact Or.inr ⟨hopen, by rw [hall, if_pos hnil]⟩
  | cutOff hne =>
    obtain ⟨hall, hopen⟩ := hnever rfl
    exact Or.inr ⟨hopen, by rw [hall, if_neg hne]⟩
  | settled hne hsettles =>
    refine Or.inl ⟨n + 1, ⟨hheld ▸ hsettles, fun m hm => hopen m (Nat.le_of_lt_succ hm)⟩, ?_⟩
    rw [hheld]

/-- There is only one first time. -/
theorem StopsAt.unique {s : Incoming ε} {m n : Nat} (hm : StopsAt s m) (hn : StopsAt s n) :
    m = n := by
  rcases Nat.lt_trichotomy m n with hlt | heq | hlt
  · exact absurd hm.settles (hn.earlier m hlt)
  · exact heq
  · exact absurd hn.settles (hm.earlier n hlt)

/-- The outcome is the judgement on what settles it first. -/
theorem StopsAt.readHead_eq {s : Incoming ε} {n : Nat} (h : StopsAt s n) (hs : s.IsPlain) :
    (readHead s).1 = judgement (s.held n) := by
  rcases readHead_stops hs with ⟨m, hstops, houtcome⟩ | ⟨hnever, -⟩
  · rw [houtcome, hstops.unique h]
  · exact absurd h.settles (hnever n)

/-- **A rejection for a reason that only a verdict gives** comes with the first read that settles
it, and is the verdict on what is in hand after it. -/
theorem readHead_rejected_iff {s : Incoming ε} (hs : s.IsPlain) {why : Rejection}
    (hmalformed : why ≠ .malformed) (hlong : why ≠ .tooLong) :
    (readHead s).1 = .rejected why ↔
      ∃ n, Head.verdict? (s.held n) = some (.error why) ∧ ∀ m < n, ¬ Settles (s.held m) := by
  constructor
  · intro h
    rcases readHead_stops hs with ⟨n, hstops, houtcome⟩ | ⟨-, houtcome⟩
    · refine ⟨n, ?_, hstops.earlier⟩
      rw [houtcome, judgement] at h
      split at h
      · cases h
      · rename_i hv
        rw [hv, HeadOutcome.rejected.inj h]
      · exact absurd (HeadOutcome.rejected.inj h).symm hlong
    · rw [houtcome] at h
      split at h
      · cases h
      · exact absurd (HeadOutcome.rejected.inj h).symm hmalformed
  · rintro ⟨n, hv, hearlier⟩
    have hstops : StopsAt s n := ⟨Or.inl (by simp [hv]), hearlier⟩
    rw [hstops.readHead_eq hs, judgement, hv]

end IsolatedSite.Connection
