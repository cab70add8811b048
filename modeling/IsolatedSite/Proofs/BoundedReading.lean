/-
# Reading a head takes few reads and few octets

The loop that reads a head counts nothing.  What bounds it is that what is in hand does not settle
the reading before the last read: until then it is below the limit, and every read has added
something to it (`Course.lt_maxHead`, `Course.length_held_le`).  More arrivals behind the last read
change nothing (`Course.append`).  From these: `readHead_bounded`, for everything that a peer can
do, an endless stream included.
-/
import IsolatedSite.Proofs.ReadingSteps

namespace IsolatedSite.Connection

open IsolatedSite.Http

variable {ε : Type}

/-! ## 1. Bounds -/

section

variable {s rest : Incoming ε} {n : Nat} {outcome : HeadOutcome ε}

/-- Before the last read, what is in hand is below the limit. -/
theorem Course.length_held_lt (h : Course [] s n outcome rest) : (s.held n).length < maxHead := by
  by_contra hle
  exact h.unsettled n (Nat.le_refl n) (.inr (Nat.le_of_not_lt hle))

/-- There are fewer reads before the last one than the limit has octets, as each has found some. -/
theorem Course.lt_maxHead (h : Course [] s n outcome rest) : n < maxHead :=
  Nat.lt_of_le_of_lt h.finds_all.le_length_held h.length_held_lt

/-- The last read adds one portion at most. -/
theorem Course.length_held_le (h : Course [] s n outcome rest) :
    (s.held (n + 1)).length ≤ maxHead - 1 + portion := by
  have hlt := h.length_held_lt
  have hle := s.length_held_succ_le n
  omega

/-- Arrivals behind those that the course reads stay where they are. -/
theorem Course.append (h : Course [] s n outcome rest) (hlen : n < s.length) (t : Incoming ε) :
    Course [] (s ++ t) n outcome (rest ++ t) where
  finds_all m hm := by
    rw [Incoming.finds_append t (Nat.lt_trans hm hlen)]
    exact h.finds_all m hm
  unsettled m hm := by
    rw [(Incoming.after_append t (Nat.le_of_lt (Nat.lt_of_le_of_lt hm hlen))).2]
    exact h.unsettled m hm
  last := by
    rw [(Incoming.after_append t (Nat.le_of_lt hlen)).2, Incoming.finds_append t hlen]
    exact h.last
  rest_eq := by rw [(Incoming.after_append t hlen).1, h.rest_eq]

end

/-! ## 2. Silence -/

/-- Only silence goes without an answer. -/
theorem LastRead.of_closed {inHand : Bytes} {found : Except ε Bytes} {outcome : HeadOutcome ε}
    (h : LastRead inHand found outcome) (hclosed : outcome = .closed) :
    inHand = [] ∧ found = .ok [] := by
  cases h with
  | silent hnil => exact ⟨hnil, rfl⟩
  | failed | cutOff => cases hclosed
  | settled =>
    rw [judgement] at hclosed
    split at hclosed <;> cases hclosed

/-- A reading ends without an answer exactly if its first read finds the end. -/
theorem readHead_closed_iff (s : Incoming ε) : (readHead s).1 = .closed ↔ s.finds 0 = .ok [] := by
  obtain ⟨n, hcourse⟩ := readHead_course s
  constructor
  · intro hclosed
    obtain ⟨hnil, hend⟩ := hcourse.last.of_closed hclosed
    have hle := hcourse.finds_all.le_length_held
    rw [← List.nil_append (s.held n), hnil] at hle
    rwa [Nat.le_zero.mp hle] at hend
  · intro hend
    rcases hread : s.read portion with ⟨found, rest⟩
    rw [Incoming.finds_zero hread] at hend
    have hclosed : Course [] s 0 .closed rest :=
      .of_first hread not_settles_nil (hend ▸ .silent rfl)
    exact (hcourse.unique hclosed).2.1

/-! ## 3. Peers that go on for ever -/

/-- The first `k` arrivals from a peer that goes on for ever. -/
def Incoming.beginning (peer : Nat → Arrival ε) (k : Nat) : Incoming ε := (List.range k).map peer

theorem Incoming.beginning_add (peer : Nat → Arrival ε) (m k : Nat) :
    beginning peer (m + k) = beginning peer m ++ beginning (fun i => peer (m + i)) k := by
  simp [beginning, List.range_add]

/-- What such a peer has in store behind the arrivals that a course reads is left untouched. -/
theorem Course.readHead_beginning {peer : Nat → Arrival ε} {m n : Nat} {outcome : HeadOutcome ε}
    {rest : Incoming ε} (h : Course [] (.beginning peer m) n outcome rest) (hn : n < m) (k : Nat) :
    readHead (.beginning peer (m + k)) =
      (outcome, rest ++ .beginning (fun i => peer (m + i)) k) := by
  have hlen : n < (Incoming.beginning peer m).length := by simpa [Incoming.beginning] using hn
  rw [Incoming.beginning_add]
  obtain ⟨n', hcourse⟩ :=
    readHead_course (.beginning peer m ++ .beginning (fun i => peer (m + i)) k)
  obtain ⟨-, houtcome, hrest⟩ := hcourse.unique (h.append hlen _)
  exact Prod.ext houtcome hrest

/-- **Reading a head always stops, and stays small.**  Whatever comes in, octets, failures and ends
in any order and in pieces of any size, the reading takes its course in at most `maxHead` reads, and
what it has taken then is all of what came in that is not left, at most one portion behind the
last octet that could leave the matter open.  It ends without an answer exactly if the first read
finds the end.  Of a peer that goes on for ever, it looks at the first `maxHead` arrivals only: it
does the same however many there are behind them, and leaves those untouched. -/
theorem readHead_bounded :
    (∀ s : Incoming ε, ∃ n < maxHead, Course [] s n (readHead s).1 (readHead s).2 ∧
      s.held (n + 1) ++ (readHead s).2.unread = s.unread ∧
      (s.held (n + 1)).length ≤ maxHead - 1 + portion) ∧
    (∀ s : Incoming ε, (readHead s).1 = .closed ↔ s.finds 0 = .ok []) ∧
    ∀ peer : Nat → Arrival ε, ∃ outcome rest, ∀ k,
      readHead (.beginning peer (maxHead + k)) =
        (outcome, rest ++ .beginning (fun i => peer (maxHead + i)) k) := by
  refine ⟨fun s => ?_, readHead_closed_iff, fun peer => ?_⟩
  · obtain ⟨n, hcourse⟩ := readHead_course s
    refine ⟨n, hcourse.lt_maxHead, hcourse, ?_, hcourse.length_held_le⟩
    rw [hcourse.rest_eq]
    exact hcourse.finds_all.held_append_unread
  · obtain ⟨n, hcourse⟩ := readHead_course (.beginning peer maxHead)
    exact ⟨_, _, hcourse.readHead_beginning hcourse.lt_maxHead⟩

end IsolatedSite.Connection
