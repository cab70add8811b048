/-
# Reading a head, however it arrives

`readHead` looks at what has arrived after every read.  On an incoming side without failures it
stops with all octets of the reads up to then in hand, nothing lost and nothing read beyond them, in
one of five ways (`Ending`, `readHead_ending`).

Since a verdict is final (`Head.verdict?_append_of_ok`, `Head.verdict?_append_of_error`), the way
of stopping does not depend on how the octets were cut into reads: if some beginning of them that
is no longer than the limit has a verdict, every cut leads to that verdict
(`readHead_cut_irrelevant`).
-/
import IsolatedSite.Proofs.HeadStability
import IsolatedSite.Proofs.ReadingSteps

namespace IsolatedSite.Connection

open IsolatedSite.Http

variable {ε : Type}

/-! ## 1. How reading a head ends -/

/-- The ways in which reading a head ends, `read` being all octets that were read and `rest` what
is left. -/
inductive Ending : (read : Bytes) → (rest : Incoming ε) → HeadOutcome ε → Prop
  | accepted {read : Bytes} {rest : Incoming ε} (h : Head) :
      Head.verdict? read = some (.ok h) → Ending read rest (.complete read)
  | refused {read : Bytes} {rest : Incoming ε} (why : Rejection) :
      Head.verdict? read = some (.error why) → Ending read rest (.rejected why)
  | overlong {read : Bytes} {rest : Incoming ε} :
      Head.verdict? read = none → maxHead ≤ read.length → Ending read rest (.rejected .tooLong)
  | cutOff {read : Bytes} :
      Head.verdict? read = none → read ≠ [] → Ending read [] (.rejected .malformed)
  | silent : Ending [] [] .closed

/-- A judgement is one of the first three. -/
theorem ending_of_settles {read : Bytes} (rest : Incoming ε) (h : Settles read) :
    Ending read rest (judgement read) := by
  rw [judgement]
  split
  · exact .accepted _ ‹_›
  · exact .refused _ ‹_›
  · rename_i hv
    exact .overlong hv (h.resolve_left fun hne => hne hv)

/-- **Nothing is lost, and the end is one of five.**  What was read followed by what is left is
all that came in. -/
theorem readHead_ending {s : Incoming ε} (hs : s.IsPlain) :
    ∃ read, Ending read (readHead s).2 (readHead s).1 ∧
      read ++ (readHead s).2.unread = s.unread ∧ (readHead s).2.IsPlain := by
  obtain ⟨n, hcourse⟩ := readHead_course s
  obtain ⟨found, hfinds, hend⟩ := hs.finds_cases n
  have hopen : Head.verdict? (s.held n) = none := by
    by_contra hv
    exact hcourse.unsettled n (Nat.le_refl n) (.inl hv)
  have hheld := hcourse.finds_all.held_succ_eq hfinds
  have hlast : LastRead (s.held n) (s.finds n) (readHead s).1 := hcourse.last
  rw [hfinds] at hlast
  rw [hcourse.rest_eq]
  refine ⟨s.held (n + 1), ?_, hcourse.finds_all.held_append_unread, hs.after (n + 1)⟩
  rw [hheld]
  generalize (readHead s).1 = outcome at hlast ⊢
  cases hlast with
  | silent hnil =>
    rw [hend rfl, hnil]
    exact .silent
  | cutOff hne =>
    rw [hend rfl, List.append_nil]
    exact .cutOff hopen hne
  | settled hne hsettles => exact ending_of_settles _ hsettles

/-! ## 2. The cut does not matter -/

/-- An early verdict of acceptance is what reading ends with. -/
theorem Ending.complete_of_ok {p read : Bytes} {rest : Incoming ε} {o : HeadOutcome ε} {h : Head}
    (hend : Ending read rest o) (hp : p <+: read ++ rest.unread) (hlen : p.length ≤ maxHead)
    (hv : Head.verdict? p = some (.ok h)) :
    o = .complete read ∧ Head.verdict? read = some (.ok h) := by
  -- whichever of the two is the longer one, a verdict on the shorter one is also its verdict
  have hlonger : ∀ {q : Bytes}, p <+: q → Head.verdict? q = some (.ok h) := by
    rintro q ⟨more, rfl⟩
    exact Head.verdict?_append_of_ok more hv
  have hcompare : p <+: read ∨ read <+: p :=
    List.prefix_or_prefix_of_prefix hp (List.prefix_append read rest.unread)
  cases hend with
  | accepted h' hv' =>
    refine ⟨rfl, ?_⟩
    rcases hcompare with hpre | ⟨more, rfl⟩
    · exact hlonger hpre
    · rw [← hv, Head.verdict?_append_of_ok more hv', hv']
  | refused why hv' =>
    rcases hcompare with hpre | ⟨more, rfl⟩
    · rw [hlonger hpre] at hv'
      cases hv'
    · obtain ⟨why', hlong⟩ := Head.verdict?_append_of_error more hv'
      rw [hlong] at hv
      cases hv
  | overlong hv' hmax =>
    have hpre : p <+: read := List.prefix_of_prefix_length_le hp (List.prefix_append _ _) (by omega)
    rw [hlonger hpre] at hv'
    cases hv'
  | cutOff hv' hne =>
    rw [hlonger (by simpa using hp)] at hv'
    cases hv'
  | silent =>
    have hnil : Head.verdict? [] = some (.ok h) := hlonger (by simpa using hp)
    rw [verdict?_nil] at hnil
    cases hnil

/-- An early verdict of rejection makes reading end with a rejection. -/
theorem Ending.rejected_of_error {p read : Bytes} {rest : Incoming ε} {o : HeadOutcome ε}
    {why : Rejection} (hend : Ending read rest o) (hp : p <+: read ++ rest.unread)
    (hv : Head.verdict? p = some (.error why)) : ∃ why', o = .rejected why' := by
  have hcompare : p <+: read ∨ read <+: p :=
    List.prefix_or_prefix_of_prefix hp (List.prefix_append read rest.unread)
  cases hend with
  | accepted h hv' =>
    rcases hcompare with ⟨more, rfl⟩ | ⟨more, rfl⟩
    · obtain ⟨why', hlong⟩ := Head.verdict?_append_of_error more hv
      rw [hlong] at hv'
      cases hv'
    · rw [Head.verdict?_append_of_ok more hv'] at hv
      cases hv
  | refused why' hv' => exact ⟨why', rfl⟩
  | overlong hv' hmax => exact ⟨_, rfl⟩
  | cutOff hv' hne => exact ⟨_, rfl⟩
  | silent =>
    have hnil : p = [] := by simpa using hp
    rw [hnil, verdict?_nil] at hv
    cases hv

/-- **Acceptance does not depend on how a head arrives.**  Let `p` be a beginning of `s` on which
there is a verdict.  Every longer beginning has a verdict of the same kind, an accepted head being
the same one; and if `p` is within the limit, reading ends in that way for every cut of `s`. -/
theorem readHead_cut_irrelevant {p s : Bytes} (hp : p <+: s) (hv : Head.verdict? p ≠ none) :
    (∃ h, (∀ q, p <+: q → Head.verdict? q = some (.ok h)) ∧
      (p.length ≤ maxHead → ∀ cut, IsCut cut s → ∃ read,
        (readHead (ε := ε) (.ofPieces cut)).1 = .complete read ∧
          Head.verdict? read = some (.ok h))) ∨
    ((∀ q, p <+: q → ∃ why, Head.verdict? q = some (.error why)) ∧
      (p.length ≤ maxHead → ∀ cut, IsCut cut s → ∃ why,
        (readHead (ε := ε) (.ofPieces cut)).1 = .rejected why)) := by
  have hends : ∀ cut, IsCut cut s → ∃ read,
      Ending read (readHead (ε := ε) (.ofPieces cut)).2 (readHead (ε := ε) (.ofPieces cut)).1 ∧
        p <+: read ++ (readHead (ε := ε) (.ofPieces cut)).2.unread := by
    intro cut hcut
    obtain ⟨read, hend, happ, -⟩ :=
      readHead_ending (ε := ε) (Incoming.isPlain_ofPieces hcut.2)
    refine ⟨read, hend, ?_⟩
    rw [happ, Incoming.unread_ofPieces, hcut.1]
    exact hp
  cases hverdict : Head.verdict? p with
  | none => exact absurd hverdict hv
  | some v =>
    cases v with
    | ok h =>
      refine Or.inl ⟨h, ?_, ?_⟩
      · rintro q ⟨more, rfl⟩
        exact Head.verdict?_append_of_ok more hverdict
      · intro hlen cut hcut
        obtain ⟨read, hend, hpre⟩ := hends cut hcut
        exact ⟨read, hend.complete_of_ok hpre hlen hverdict⟩
    | error why =>
      refine Or.inr ⟨?_, ?_⟩
      · rintro q ⟨more, rfl⟩
        exact Head.verdict?_append_of_error more hverdict
      · intro _ cut hcut
        obtain ⟨read, hend, hpre⟩ := hends cut hcut
        exact hend.rejected_of_error hpre hverdict

/-- A request with octets behind its head is passed on in every cut. -/
theorem readHead_cut_irrelevant_request :
    ascii "GET / HTTP/1.1\r\n\r\n" <+: ascii "GET / HTTP/1.1\r\n\r\nmore" ∧
      Head.verdict? (ascii "GET / HTTP/1.1\r\n\r\n") ≠ none ∧
      ∀ cut, IsCut cut (ascii "GET / HTTP/1.1\r\n\r\nmore") → ∃ read,
        (readHead (ε := Unit) (.ofPieces cut)).1 = .complete read := by
  have hpre : ascii "GET / HTTP/1.1\r\n\r\n" <+: ascii "GET / HTTP/1.1\r\n\r\nmore" := by
    decide +kernel
  have hv : Head.verdict? (ascii "GET / HTTP/1.1\r\n\r\n") =
      some (.ok ⟨ascii "GET", ascii "/", .http11, []⟩) := by
    decide +kernel
  refine ⟨hpre, by simp [hv], fun cut hcut => ?_⟩
  rcases readHead_cut_irrelevant (ε := Unit) hpre (by simp [hv]) with ⟨h, -, hread⟩ | ⟨hbad, -⟩
  · obtain ⟨read, hcomplete, -⟩ := hread (by decide +kernel) cut hcut
    exact ⟨read, hcomplete⟩
  · obtain ⟨why, hwhy⟩ := hbad _ (List.prefix_refl _)
    rw [hv] at hwhy
    cases hwhy

end IsolatedSite.Connection
