/-
# The limit for heads, and the read that crosses it

What is in hand is compared with the limit only after a whole read, and only if there is no verdict
on it yet.  So a head within the limit is never rejected for its size, but one beyond it need not
be: the read that crosses the limit may bring up to a portion more, and may complete the head with
it.

What a head that is open up to the limit is answered with is the judgement on what is in hand when
that first reaches the limit (`ReachesLimit.readHead_eq`).  Every beginning that is less than a
portion longer than the limit is in hand then if the octets come in suitably (`exists_cut`).  From
these: `readHead_at_limit`, which outcomes there are for given octets, and for which octets the
limit is the limit.
-/
import IsolatedSite.Proofs.ReadingSteps
import IsolatedSite.Proofs.RequestLines
import Mathlib.Data.Nat.Find

namespace IsolatedSite.Http.Head

open Scan

/-! ## 1. Open heads -/

/-- What is open was open before. -/
theorem verdict?_eq_none_of_prefix {p b : Bytes} (h : p <+: b) (hb : verdict? b = none) :
    verdict? p = none := by
  obtain ⟨more, rfl⟩ := h
  cases hp : verdict? p with
  | none => rfl
  | some v =>
    cases v with
    | ok head =>
      rw [verdict?_append_of_ok more hp] at hb
      cases hb
    | error why =>
      obtain ⟨why', hwhy⟩ := verdict?_append_of_error more hp
      rw [hwhy] at hb
      cases hb

/-- A verdict is about what was sent, not about how much there is of it. -/
theorem verdict?_ne_tooLong (b : Bytes) : verdict? b ≠ some (.error .tooLong) := by
  unfold verdict?
  split
  · simp
  · simp
  · unfold versionRejection
    split
    · split <;> simp
    · simp
  · simp
  · split <;> simp

/-- Too large a head, if nothing else is wrong with what begins with `b`. -/
def OnlyTooLarge (b : Bytes) : Prop :=
  verdict? b = none ∨ verdict? b = some (.error .tooManyFields)

end IsolatedSite.Http.Head

namespace IsolatedSite.Connection

open IsolatedSite.Http

variable {ε : Type}

/-- The answer is the one to too large a head. -/
def IsTooLarge (outcome : HeadOutcome ε) : Prop :=
  ∃ why, outcome = .rejected why ∧ why.status = .fieldsTooLarge

theorem judgement_eq_tooLong_iff {b : Bytes} :
    (judgement b : HeadOutcome ε) = .rejected .tooLong ↔ Head.verdict? b = none := by
  rw [judgement]
  split <;> rename_i hv
  · simp [hv]
  · simp only [HeadOutcome.rejected.injEq, hv]
    refine iff_of_false ?_ (by simp)
    rintro rfl
    exact Head.verdict?_ne_tooLong b hv
  · simp [hv]

theorem isTooLarge_judgement_iff {b : Bytes} :
    IsTooLarge (judgement b : HeadOutcome ε) ↔ Head.OnlyTooLarge b := by
  rw [judgement, Head.OnlyTooLarge]
  split <;> rename_i hv
  · refine iff_of_false ?_ (by simp [hv])
    rintro ⟨why, hwhy, -⟩
    cases hwhy
  · rename_i why
    simp only [IsTooLarge, HeadOutcome.rejected.injEq, exists_eq_left', hv, Option.some.injEq,
      Except.error.injEq, false_or, reduceCtorEq]
    cases why with
    | tooLong => exact absurd hv (Head.verdict?_ne_tooLong b)
    | malformed | unreadableVersion | unsupportedVersion | tooManyFields => decide
  · exact iff_of_true ⟨_, rfl, rfl⟩ (.inl hv)

/-! ## 2. What is in hand at the limit -/

/-- No beginning of `b` within the limit has a verdict. -/
def IsUndecided (b : Bytes) : Prop :=
  ∀ p, p <+: b → p.length ≤ maxHead → Head.verdict? p = none

/-- After `n` reads, and not before, what is in hand reaches the limit. -/
structure ReachesLimit (s : Incoming ε) (n : Nat) : Prop where
  maxHead_le : maxHead ≤ (s.held n).length
  below : ∀ m < n, (s.held m).length < maxHead

/-- `p` is a beginning of `b` that one read from below the limit can lead to. -/
structure CrossesLimit (p b : Bytes) : Prop where
  isPrefix : p <+: b
  maxHead_le : maxHead ≤ p.length
  length_lt : p.length < maxHead + portion

theorem exists_reachesLimit {s : Incoming ε} (hs : s.IsPlain) (hlong : maxHead ≤ s.unread.length) :
    ∃ n, ReachesLimit s n := by
  have hreach : ∃ n, maxHead ≤ (s.held n).length := by
    obtain ⟨n, hn⟩ := Incoming.exists_held_eq_unread hs
    exact ⟨n, hn ▸ hlong⟩
  exact ⟨Nat.find hreach, Nat.find_spec hreach,
    fun m hm => Nat.lt_of_not_le (Nat.find_min hreach hm)⟩

theorem ReachesLimit.crossesLimit {s : Incoming ε} {n : Nat} (h : ReachesLimit s n)
    (hs : s.IsPlain) : CrossesLimit (s.held n) s.unread := by
  refine ⟨Incoming.held_prefix_unread hs n, h.maxHead_le, ?_⟩
  cases n with
  | zero => exact Nat.succ_pos _
  | succ n =>
    have hbelow := h.below n (Nat.lt_succ_self n)
    have hle := s.length_held_succ_le n
    omega

/-- **A head that is open up to the limit** is judged by what is in hand when it gets there. -/
theorem ReachesLimit.readHead_eq {s : Incoming ε} {n : Nat} (h : ReachesLimit s n) (hs : s.IsPlain)
    (hopen : IsUndecided s.unread) : (readHead s).1 = judgement (s.held n) := by
  refine StopsAt.readHead_eq ⟨.inr h.maxHead_le, fun m hm => ?_⟩ hs
  have hbelow := h.below m hm
  rintro (hv | hlen)
  · exact hv (hopen _ (Incoming.held_prefix_unread hs m) (Nat.le_of_lt hbelow))
  · exact absurd hlen (Nat.not_le_of_lt hbelow)

/-- **A head within the limit** is not rejected for its size. -/
theorem readHead_ne_tooLong {s : Incoming ε} (hs : s.IsPlain) {p : Bytes} (hp : p <+: s.unread)
    (hlen : p.length ≤ maxHead) (hv : Head.verdict? p ≠ none) :
    (readHead s).1 ≠ .rejected .tooLong := by
  intro hlong
  rcases readHead_stops hs with ⟨n, hstops, houtcome⟩ | ⟨-, houtcome⟩
  · rw [houtcome, judgement_eq_tooLong_iff] at hlong
    rcases hstops.settles with hsettles | hmax
    · exact hsettles hlong
    · have hpre : p <+: s.held n := List.prefix_of_prefix_length_le hp
        (Incoming.held_prefix_unread hs n) (Nat.le_trans hlen hmax)
      exact hv (Head.verdict?_eq_none_of_prefix hpre hlong)
  · rw [houtcome] at hlong
    split at hlong <;> cases hlong

/-! ## 3. Octets that come in so that the limit is crossed where one likes -/

/-- A piece that one read has room for is read as a whole. -/
theorem Incoming.read_octets_of_le {b : Bytes} (hb : b.length ≤ portion) (s : Incoming ε) :
    read portion (.octets b :: s) = (.ok b, s) := by
  have hdrop : b.drop portion = [] := List.drop_eq_nil_iff.mpr hb
  have htake : b.take portion = b := List.take_of_length_le hb
  have hpos : 0 < portion := by decide
  simp only [read, hdrop, hpos, and_self, or_true, if_true, htake]

/-- A piece is in hand after some reads, whatever comes behind it. -/
theorem Incoming.exists_held_octets (b : Bytes) (hb : b ≠ []) :
    ∃ k, ∀ (s : Incoming ε) (n : Nat), held (.octets b :: s) (n + k) = b ++ held s n := by
  by_cases hle : b.length ≤ portion
  · exact ⟨1, fun s n => held_succ (read_octets_of_le hle s) n⟩
  · have hdrop : b.drop portion ≠ [] := fun h => hle (List.drop_eq_nil_iff.mp h)
    have hlt : (b.drop portion).length < b.length := by
      have hportion : 0 < portion := by decide
      rw [List.length_drop]
      omega
    obtain ⟨k, hk⟩ := exists_held_octets (b.drop portion) hdrop
    refine ⟨k + 1, fun s n => ?_⟩
    have hread : read portion (.octets b :: s) =
        (.ok (b.take portion), .octets (b.drop portion) :: s) := by
      simp only [read, hb, hdrop, false_and, or_self, if_false]
    rw [← Nat.add_assoc, held_succ hread, hk, ← List.append_assoc, List.take_append_drop]
termination_by b.length
decreasing_by exact hlt

/-- Two pieces, the first of which is below the limit and the second of which crosses it at once. -/
theorem exists_reachesLimit_of_pieces {x y : Bytes} (hx : x ≠ []) (hbelow : x.length < maxHead)
    (hy : y.length ≤ portion) (hmax : maxHead ≤ (x ++ y).length) (s : Incoming ε) :
    ∃ n, ReachesLimit (.octets x :: .octets y :: s) n ∧
      Incoming.held (.octets x :: .octets y :: s) n = x ++ y := by
  obtain ⟨k, hk⟩ := Incoming.exists_held_octets (ε := ε) x hx
  have hfirst : Incoming.held (.octets x :: .octets y :: s) k = x := by
    have hheld := hk (.octets y :: s) 0
    rwa [Nat.zero_add, Incoming.held_zero, List.append_nil] at hheld
  have hboth : Incoming.held (.octets x :: .octets y :: s) (1 + k) = x ++ y := by
    rw [hk, Incoming.held_succ (Incoming.read_octets_of_le hy s), Incoming.held_zero,
      List.append_nil]
  refine ⟨1 + k, ⟨hboth.symm ▸ hmax, fun m hm => ?_⟩, hboth⟩
  have hpre := Incoming.held_prefix (.octets x :: .octets y :: s) (show m ≤ k by omega)
  rw [hfirst] at hpre
  exact Nat.lt_of_le_of_lt hpre.length_le hbelow

/-- **Every beginning that crosses the limit** is in hand there, if one piece ends right below the
limit and the next one with the beginning. -/
theorem exists_cut {p b : Bytes} (h : CrossesLimit p b) :
    ∃ cut n, IsCut cut b ∧ ReachesLimit (.ofPieces cut : Incoming ε) n ∧
      (Incoming.ofPieces cut : Incoming ε).held n = p := by
  obtain ⟨⟨rest, rfl⟩, hmax, hlen⟩ := h
  obtain ⟨x, y, rfl, hx⟩ : ∃ x y, p = x ++ y ∧ x.length = maxHead - 1 :=
    ⟨_, _, (List.take_append_drop (maxHead - 1) p).symm, List.length_take_of_le (by omega)⟩
  have hpos : 0 < maxHead - 1 := by decide
  rw [List.length_append] at hlen
  have hx_ne : x ≠ [] := List.ne_nil_of_length_pos (by omega)
  have hy_ne : y ≠ [] := by
    rintro rfl
    rw [List.append_nil] at hmax
    omega
  obtain ⟨tail, htail⟩ := exists_isCut rest
  obtain ⟨n, hreach, hheld⟩ := exists_reachesLimit_of_pieces hx_ne (by omega) (by omega) hmax
    (Incoming.ofPieces tail : Incoming ε)
  refine ⟨x :: y :: tail, n, ?_, hreach, hheld⟩
  rw [List.append_assoc]
  exact (htail.cons hy_ne).cons hx_ne

/-! ## 4. Long heads -/

/-- A head whose one field has a value of `n` octets so far. -/
def openHead (n : Nat) : Bytes := ascii "GET / HTTP/1.1\r\nX:" ++ List.replicate n 97

/-- The same head, complete. -/
def longHead (n : Nat) : Bytes := openHead n ++ ascii "\r\n\r\n"

theorem length_openHead (n : Nat) : (openHead n).length = n + 18 := by
  rw [openHead, List.length_append, List.length_replicate, Nat.add_comm]
  rfl

/-- Its last octets are a line end and an empty line. -/
theorem longHead_eq (n : Nat) : longHead n = openHead n ++ ascii "\r\n" ++ ascii "\r\n" := by
  rw [longHead, List.append_assoc]
  rfl

theorem length_longHead (n : Nat) : (longHead n).length = n + 22 := by
  rw [longHead, List.length_append, length_openHead]
  rfl

/-- A value of the field, and the rest of the head. -/
theorem scan_value (b : Bytes) : Head.scan (ascii "GET / HTTP/1.1\r\nX:" ++ b) =
    (Head.scanValue b).bind fun v b => (Head.scanLines 99 b).bind fun fs b =>
      .done ⟨ascii "GET", ascii "/", .http11, (ascii "X", v) :: fs⟩ b := by
  have hlines : Head.scan (ascii "GET / HTTP/1.1\r\nX:" ++ b) =
      (Head.scanLines 100 (ascii "X:" ++ b)).bind fun fs b =>
        .done ⟨ascii "GET", ascii "/", .http11, fs⟩ b := rfl
  have hline : Head.scanLine (ascii "X:" ++ b) =
      (Head.scanValue b).bind fun v b => .done (some (ascii "X", v)) b := rfl
  rw [hlines, Head.scanLines, hline]
  cases Head.scanValue b with
  | waiting => rfl
  | refused e => rfl
  | done v b =>
    simp only [Scan.done_bind, Scan.map]
    cases Head.scanLines 99 b <;> rfl

theorem scan_openHead (n : Nat) (b : Bytes) : Head.scan (openHead n ++ ascii "\r\n" ++ b) =
    (Head.scanLines 99 b).bind fun fs b =>
      .done ⟨ascii "GET", ascii "/", .http11,
        (ascii "X", trimBoth isPad (List.replicate n 97)) :: fs⟩ b := by
  have hvalue : Head.scanValue (List.replicate n 97 ++ (ascii "\r\n" ++ b)) =
      .done (trimBoth isPad (List.replicate n 97)) b := by
    have hrun : ∀ x ∈ List.replicate n (97 : UInt8), isValueByte x = true := fun x hx => by
      rw [List.eq_of_mem_replicate hx]
      decide
    have hend : isValueByte Byte.cr = false := by decide
    have hcrlf : ascii "\r\n" ++ b = Byte.cr :: Byte.lf :: b := rfl
    rw [Head.scanValue, hcrlf, Scan.run_append hrun hend]
    rfl
  rw [openHead, List.append_assoc, List.append_assoc, scan_value, hvalue, Scan.done_bind]

/-- The head is open without its last octet. -/
theorem verdict?_openHead (n : Nat) : Head.verdict? (openHead n ++ ascii "\r\n\r") = none := by
  have hsplit : openHead n ++ ascii "\r\n\r" = openHead n ++ ascii "\r\n" ++ [Byte.cr] := by
    rw [List.append_assoc]
    rfl
  rw [Head.verdict?_eq_none_iff, hsplit, scan_openHead]
  rfl

theorem verdict?_longHead (n : Nat) : ∃ h, Head.verdict? (longHead n) = some (.ok h) := by
  have hscan : Head.scan (longHead n) = .done ⟨ascii "GET", ascii "/", .http11,
      [(ascii "X", trimBoth isPad (List.replicate n 97))]⟩ [] := by
    rw [longHead_eq, scan_openHead]
    rfl
  exact ⟨_, Head.verdict?_eq_ok_iff.mpr ⟨⟨[], hscan⟩, rfl⟩⟩

/-- An incomplete head is undecided however long it is. -/
theorem isUndecided_of_prefix {b : Bytes} {n : Nat} (h : b <+: openHead n ++ ascii "\r\n\r") :
    IsUndecided b :=
  fun _ hp _ => Head.verdict?_eq_none_of_prefix (hp.trans h) (verdict?_openHead n)

/-- Up to the limit, a head is undecided that ends with the octet behind it or later. -/
theorem isUndecided_longHead {n : Nat} (hn : maxHead < n + 22) : IsUndecided (longHead n) := by
  intro p hp hlen
  have hopen : openHead n ++ ascii "\r\n\r" <+: longHead n := ⟨[Byte.lf], by
    rw [longHead, List.append_assoc]
    rfl⟩
  have hthree : (ascii "\r\n\r").length = 3 := rfl
  refine Head.verdict?_eq_none_of_prefix
    (List.prefix_of_prefix_length_le hp hopen ?_) (verdict?_openHead n)
  rw [List.length_append, length_openHead]
  omega

/-! ## 5. The limit for given octets -/

/-- **Which outcomes there are**, for octets that are undecided up to the limit: the judgements on
the beginnings that cross it. -/
theorem exists_cut_readHead_eq_iff {b : Bytes} (hopen : IsUndecided b) (hlong : maxHead ≤ b.length)
    (outcome : HeadOutcome ε) :
    (∃ cut, IsCut cut b ∧ (readHead (.ofPieces cut)).1 = outcome) ↔
      ∃ p, CrossesLimit p b ∧ outcome = judgement p := by
  constructor
  · rintro ⟨cut, hcut, rfl⟩
    have hplain := hcut.isPlain (ε := ε)
    obtain ⟨n, hreach⟩ := exists_reachesLimit hplain (hcut.unread_eq.symm ▸ hlong)
    exact ⟨_, hcut.unread_eq ▸ hreach.crossesLimit hplain,
      hreach.readHead_eq hplain (hcut.unread_eq.symm ▸ hopen)⟩
  · rintro ⟨p, hp, rfl⟩
    obtain ⟨cut, n, hcut, hreach, hheld⟩ := exists_cut (ε := ε) hp
    refine ⟨cut, hcut, ?_⟩
    rw [hreach.readHead_eq hcut.isPlain (hcut.unread_eq.symm ▸ hopen), hheld]

/-- **How exact the limit is.**  Octets of which a beginning within the limit has a verdict are
never rejected for their size.  Octets of which none has one, and which are longer, have as many
outcomes as there are judgements on the beginnings that cross the limit: the answer is the one to
too large a head, however they come in, exactly if that is the only thing wrong with each of these
beginnings, and they are never passed on exactly if none of these beginnings is a head to serve. -/
theorem readHead_at_limit (b : Bytes) :
    (¬ IsUndecided b → ∀ cut, IsCut cut b →
      (readHead (ε := ε) (.ofPieces cut)).1 ≠ .rejected .tooLong) ∧
    (IsUndecided b → maxHead < b.length →
      (∀ outcome : HeadOutcome ε, (∃ cut, IsCut cut b ∧ (readHead (.ofPieces cut)).1 = outcome) ↔
        ∃ p, CrossesLimit p b ∧ outcome = judgement p) ∧
      ((∀ cut, IsCut cut b → IsTooLarge (readHead (ε := ε) (.ofPieces cut)).1) ↔
        ∀ p, CrossesLimit p b → Head.OnlyTooLarge p) ∧
      ((∀ cut, IsCut cut b → ∀ read, (readHead (ε := ε) (.ofPieces cut)).1 ≠ .complete read) ↔
        ∀ p, CrossesLimit p b → ∀ h, Head.verdict? p ≠ some (.ok h))) := by
  refine ⟨fun hdecided cut hcut => ?_, fun hopen hlong => ?_⟩
  · simp only [IsUndecided, not_forall] at hdecided
    obtain ⟨p, hp, hlen, hv⟩ := hdecided
    refine readHead_ne_tooLong hcut.isPlain ?_ hlen hv
    rwa [hcut.unread_eq]
  · have hiff := exists_cut_readHead_eq_iff (ε := ε) hopen (Nat.le_of_lt hlong)
    refine ⟨hiff, ⟨fun h p hp => ?_, fun h cut hcut => ?_⟩, fun h p hp head hv => ?_,
      fun h cut hcut read hread => ?_⟩
    · obtain ⟨cut, hcut, houtcome⟩ := (hiff _).mpr ⟨p, hp, rfl⟩
      exact isTooLarge_judgement_iff.mp (houtcome ▸ h cut hcut)
    · obtain ⟨p, hp, houtcome⟩ := (hiff _).mp ⟨cut, hcut, rfl⟩
      exact houtcome ▸ isTooLarge_judgement_iff.mpr (h p hp)
    · obtain ⟨cut, hcut, houtcome⟩ := (hiff _).mpr ⟨p, hp, rfl⟩
      refine h cut hcut p ?_
      rw [houtcome, judgement, hv]
    · obtain ⟨p, hp, houtcome⟩ := (hiff _).mp ⟨cut, hcut, hread⟩
      rw [judgement] at houtcome
      split at houtcome
      · rename_i head hv
        exact h p hp head hv
      · cases houtcome
      · cases houtcome

/-- Incomplete heads that go beyond the limit by a portion are rejected however they come in. -/
theorem readHead_at_limit_openHead : IsUndecided (openHead 70000) ∧
    maxHead < (openHead 70000).length ∧ ∀ cut, IsCut cut (openHead 70000) →
      IsTooLarge (readHead (ε := Unit) (.ofPieces cut)).1 := by
  have hpre : openHead 70000 <+: openHead 70000 ++ ascii "\r\n\r" := List.prefix_append _ _
  have hopen := isUndecided_of_prefix hpre
  have hlong : maxHead < (openHead 70000).length := by
    rw [length_openHead]
    decide
  refine ⟨hopen, hlong, (((readHead_at_limit _).2 hopen hlong).2.1).mpr fun p hp => .inl ?_⟩
  exact Head.verdict?_eq_none_of_prefix (hp.isPrefix.trans hpre) (verdict?_openHead 70000)

/-- The empty line that ends a head may come in by itself. -/
theorem isCut_longHead (n : Nat) :
    IsCut [openHead n ++ ascii "\r\n", ascii "\r\n"] (longHead n) := by
  have hfirst : openHead n ++ ascii "\r\n" ≠ [] :=
    List.append_ne_nil_of_right_ne_nil _ (by decide)
  have hsecond : IsCut [ascii "\r\n"] (ascii "\r\n") := ⟨rfl, by decide⟩
  rw [longHead_eq]
  exact hsecond.cons hfirst

/-- **Heads beyond the limit are passed on** if the empty line crosses it. -/
theorem readHead_longHead {n : Nat} (hbelow : n + 20 < maxHead) (hbeyond : maxHead < n + 22) :
    (readHead (ε := ε) (.ofPieces [openHead n ++ ascii "\r\n", ascii "\r\n"])).1 =
      .complete (longHead n) := by
  have hcut := isCut_longHead n
  have hlength : (openHead n ++ ascii "\r\n").length = n + 20 := by
    rw [List.length_append, length_openHead]
    rfl
  obtain ⟨m, hreach, hheld⟩ := exists_reachesLimit_of_pieces (ε := ε) (hcut.2 _ List.mem_cons_self)
    (by omega) (show (ascii "\r\n").length ≤ portion by decide)
    (by rw [← longHead_eq, length_longHead]; omega) []
  have houtcome := hreach.readHead_eq hcut.isPlain
    (hcut.unread_eq.symm ▸ isUndecided_longHead hbeyond)
  obtain ⟨h, hv⟩ := verdict?_longHead n
  rw [hheld, ← longHead_eq, judgement, hv] at houtcome
  exact houtcome

/-- **The limit is not exact**: a head one octet beyond it is passed on. -/
theorem not_forall_isTooLarge : ¬ ∀ (b : Bytes) (cut : List Bytes), IsCut cut b → IsUndecided b →
    maxHead < b.length → IsTooLarge (readHead (ε := Unit) (.ofPieces cut)).1 := by
  intro hall
  have hbeyond : maxHead < 65515 + 22 := by decide
  have hlong : maxHead < (longHead 65515).length := by
    rw [length_longHead]
    exact hbeyond
  obtain ⟨why, hwhy, -⟩ := hall _ _ (isCut_longHead 65515) (isUndecided_longHead hbeyond) hlong
  rw [readHead_longHead (by decide) hbeyond] at hwhy
  cases hwhy

end IsolatedSite.Connection
