/-
# Nothing is lost between the two readings of a head

A head that was accepted is read again from a stream with the same octets put back in front of
what is still to come.  Taken together, `readHead` and `Rewound` neither lose, repeat nor reorder
an octet: whatever the stream is used for, what its reads have delivered and what is still to come
make up all that came in (`Duplex.useAll_delivers`), and reading to the end delivers the rest
(`Rewound.readAll_eq`).  `complete_then_replayed` joins this to the first reading.
-/
import IsolatedSite.Connection.Rewind
import IsolatedSite.Proofs.HeadReading

namespace IsolatedSite.Connection

open IsolatedSite.Http

variable {ε : Type}

/-! ## 1. Reading a rewound stream -/

namespace Rewound

/-- A bound on the reads that still find something. -/
def load (r : Rewound ε) : Nat := r.putBack.length + r.incoming.weight

/-- What one read does to a rewound stream on which nothing fails: it takes octets off the front
of all that is to come. -/
structure TakesOff (n : Nat) (r : Rewound ε) (found : Bytes) (rest : Rewound ε) : Prop where
  isPlain : rest.incoming.IsPlain
  append_remaining : found ++ rest.remaining = r.remaining
  ne_nil : 0 < n → r.remaining ≠ [] → found ≠ []
  load_le : rest.load + found.length ≤ r.load

/-- The cases are those of `read`: octets were put back and there is room for some of them, or the
read goes to what is coming in, which it may also do with no room at all. -/
theorem exists_takesOff {r : Rewound ε} (h : r.incoming.IsPlain) (n : Nat) :
    ∃ found rest, r.read n = (.ok found, rest) ∧ TakesOff n r found rest := by
  by_cases hback : r.putBack ≠ [] ∧ 0 < n
  · refine ⟨r.putBack.take n, { r with putBack := r.putBack.drop n }, by simp [read, hback], h,
      ?_, ?_, ?_⟩
    · rw [remaining, remaining, ← List.append_assoc, List.take_append_drop]
    · intro hn _ hnil
      have hlen := congrArg List.length hnil
      have hpos : 0 < r.putBack.length := List.length_pos_iff.mpr hback.1
      simp only [List.length_take, List.length_nil] at hlen
      omega
    · simp only [load, List.length_drop, List.length_take]
      omega
  · obtain ⟨found, rest, hread, htaken⟩ := h.exists_takesOff n
    have heq : r.read n = (.ok found, { r with incoming := rest }) := by
      simp only [read, if_neg hback, hread]
    by_cases hn : 0 < n
    · have hnone : r.putBack = [] := by
        by_contra hne
        exact hback ⟨hne, hn⟩
      refine ⟨found, { r with incoming := rest }, heq, htaken.isPlain, ?_, ?_, ?_⟩
      · simpa [remaining, hnone] using htaken.append_unread
      · intro _ hne
        exact htaken.ne_nil hn (by simpa [remaining, hnone] using hne)
      · have hle := htaken.weight_le
        simp only [load]
        omega
    · have hfound : found = [] := List.length_eq_zero_iff.mp (by have := htaken.length_le; omega)
      refine ⟨found, { r with incoming := rest }, heq, htaken.isPlain, ?_,
        fun h' => absurd h' hn, ?_⟩
      · have happ := htaken.append_unread
        rw [hfound, List.nil_append] at happ
        simp [remaining, hfound, happ]
      · have hle := htaken.weight_le
        simp only [load]
        omega

/-- Reading on delivers all that is to come, once there is fuel for the load. -/
theorem readAllFrom_eq {n : Nat} (hn : 0 < n) : ∀ (fuel : Nat) (r : Rewound ε),
    r.incoming.IsPlain → r.load < fuel → (readAllFrom n fuel r).1 = .ok r.remaining
  | 0, _, _, hload => absurd hload (by omega)
  | fuel + 1, r, hplain, hload => by
    obtain ⟨found, rest, hread, htaken⟩ := exists_takesOff hplain n
    cases found with
    | nil =>
      have hnil : r.remaining = [] := by
        by_contra hne
        exact htaken.ne_nil hn hne rfl
      simp only [readAllFrom, hread, hnil]
    | cons x xs =>
      have hle := htaken.load_le
      rw [List.length_cons] at hle
      have ih := readAllFrom_eq hn fuel rest htaken.isPlain (by omega)
      have happ := htaken.append_remaining
      simp only [readAllFrom, hread, ih, Except.map]
      rw [happ]

/-- **Reading to the end delivers everything**, in portions of any size. -/
theorem readAll_eq {n : Nat} (hn : 0 < n) {r : Rewound ε} (h : r.incoming.IsPlain) :
    (r.readAll n).1 = .ok r.remaining :=
  readAllFrom_eq hn _ r h (by simp only [load]; omega)

end Rewound

/-! ## 2. Reading and writing -/

namespace Use

/-- Whether a use is a read with room for something. -/
def isReading : Use → Bool
  | .read room => decide (0 < room)
  | _ => false

/-- What a use writes. -/
def written : Use → Bytes
  | .write b => b
  | .writeParts parts => parts.flatten
  | _ => []

end Use

namespace Duplex

/-- What one use does: reads take off what is to come, and everything else leaves it alone. -/
structure Serves (u : Use) (d : Duplex ε) (effect : Effect) (after : Duplex ε) : Prop where
  isPlain : after.reading.incoming.IsPlain
  append_remaining : effect.octets ++ after.reading.remaining = d.reading.remaining
  ne_nil : u.isReading = true → d.reading.remaining ≠ [] → effect.octets ≠ []
  sent_eq : after.sent = d.sent ++ u.written

theorem exists_serves {d : Duplex ε} (h : d.reading.incoming.IsPlain) (u : Use) :
    ∃ effect after, d.use u = (.ok effect, after) ∧ Serves u d effect after := by
  cases u with
  | read room =>
    obtain ⟨found, rest, hread, htaken⟩ := Rewound.exists_takesOff h room
    refine ⟨.found found, { d with reading := rest }, by simp only [use, hread, Except.map],
      htaken.isPlain, htaken.append_remaining, ?_, by simp [Use.written]⟩
    intro hroom
    exact htaken.ne_nil (by simpa [Use.isReading] using hroom)
  | write b => exact ⟨_, _, rfl, h, rfl, by simp [Use.isReading], rfl⟩
  | writeParts parts => exact ⟨_, _, rfl, h, rfl, by simp [Use.isReading], rfl⟩
  | flush => exact ⟨_, _, rfl, h, rfl, by simp [Use.isReading], by simp [Use.written]⟩
  | shutDown => exact ⟨_, _, rfl, h, rfl, by simp [Use.isReading], by simp [Use.written]⟩
  | askForParts => exact ⟨_, _, rfl, h, rfl, by simp [Use.isReading], by simp [Use.written]⟩

/-- All octets that uses delivered, in order. -/
def delivered (effects : List Effect) : Bytes := effects.flatMap Effect.octets

/-- What a whole run of uses does. -/
structure Delivers (us : List Use) (d : Duplex ε) (effects : List Effect) (after : Duplex ε) :
    Prop where
  isPlain : after.reading.incoming.IsPlain
  append_remaining : delivered effects ++ after.reading.remaining = d.reading.remaining
  le_length :
    min (us.countP Use.isReading) d.reading.remaining.length ≤ (delivered effects).length
  sent_eq : after.sent = d.sent ++ us.flatMap Use.written

/-- **Run lemma.**  No use fails, and what was delivered followed by what is to come never
changes.  The induction is on the uses. -/
theorem useAll_delivers : ∀ (us : List Use) (d : Duplex ε), d.reading.incoming.IsPlain →
    ∃ effects after, useAll us d = (.ok effects, after) ∧ Delivers us d effects after
  | [], d, h => ⟨[], d, rfl, h, rfl, by simp, by simp⟩
  | u :: us, d, h => by
    obtain ⟨effect, mid, huse, hserves⟩ := exists_serves h u
    obtain ⟨effects, after, hrun, hdel⟩ := useAll_delivers us mid hserves.isPlain
    have hcons : delivered (effect :: effects) = effect.octets ++ delivered effects := rfl
    refine ⟨effect :: effects, after, by simp only [useAll, huse, hrun, Except.map],
      hdel.isPlain, ?_, ?_, ?_⟩
    · rw [hcons, List.append_assoc, hdel.append_remaining, hserves.append_remaining]
    · have hlen := congrArg List.length hserves.append_remaining
      have hle := hdel.le_length
      rw [List.length_append] at hlen
      rw [List.countP_cons, hcons, List.length_append]
      by_cases hu : u.isReading = true
      · by_cases hnone : d.reading.remaining = []
        · simp [hnone]
        · have hpos : 0 < effect.octets.length := List.length_pos_iff.mpr (hserves.ne_nil hu hnone)
          rw [if_pos hu]
          omega
      · rw [if_neg hu]
        omega
    · rw [hdel.sent_eq, hserves.sent_eq, List.flatMap_cons, List.append_assoc]

end Duplex

/-! ## 3. The two readings joined -/

/-- A head that is passed on was accepted, and nothing that came in is missing. -/
theorem readHead_complete {s rest : Incoming ε} {read : Bytes} (hs : s.IsPlain)
    (h : readHead s = (.complete read, rest)) :
    (∃ head, Head.verdict? read = some (.ok head)) ∧ read ++ rest.unread = s.unread ∧
      rest.IsPlain := by
  obtain ⟨all, hend, happ, hplain⟩ := readHead_ending hs
  rw [h] at hend happ hplain
  cases hend with
  | accepted head hv => exact ⟨⟨head, hv⟩, happ, hplain⟩

/-- **The second reading sees exactly what was sent.**  Let a head be passed on with what was read
for it put back.  Whatever the stream is then used for, with reads of any sizes, nothing fails;
what the reads have delivered is a beginning of what was sent, and what is still to come is the
rest of it; as many reads with room as there are octets deliver all of them; reading to the end
from any point delivers the rest; and what is written goes out unaltered. -/
theorem complete_then_replayed {s rest : Incoming ε} {read : Bytes} (hs : s.IsPlain)
    (h : readHead s = (.complete read, rest)) :
    read ++ rest.unread = s.unread ∧
      ∀ (us : List Use) (sent : Bytes) (takesParts : Bool), ∃ effects after,
        Duplex.useAll us ⟨⟨read, rest⟩, sent, takesParts⟩ = (.ok effects, after) ∧
          Duplex.delivered effects ++ after.reading.remaining = s.unread ∧
          (s.unread.length ≤ us.countP Use.isReading → Duplex.delivered effects = s.unread) ∧
          (∀ n, 0 < n → ∃ more, (after.reading.readAll n).1 = .ok more ∧
            Duplex.delivered effects ++ more = s.unread) ∧
          after.sent = sent ++ us.flatMap Use.written := by
  obtain ⟨-, happ, hplain⟩ := readHead_complete hs h
  refine ⟨happ, fun us sent takesParts => ?_⟩
  obtain ⟨effects, after, hrun, hdel⟩ :=
    Duplex.useAll_delivers us ⟨⟨read, rest⟩, sent, takesParts⟩ hplain
  have hall : Duplex.delivered effects ++ after.reading.remaining = s.unread := by
    rw [hdel.append_remaining]
    exact happ
  refine ⟨effects, after, hrun, hall, ?_, ?_, hdel.sent_eq⟩
  · intro hreads
    have hle := hdel.le_length
    have hremaining : (Rewound.remaining ⟨read, rest⟩ : Bytes) = s.unread := happ
    have hlen := congrArg List.length hall
    rw [List.length_append] at hlen
    simp only [hremaining] at hle
    have hnil : after.reading.remaining = [] := List.length_eq_zero_iff.mp (by omega)
    simpa [hnil] using hall
  · intro n hn
    exact ⟨after.reading.remaining, Rewound.readAll_eq hn hdel.isPlain, hall⟩

/-- A request with a body, cut inside its head and inside its body. -/
def requestInThree : Incoming Unit :=
  [.octets (ascii "GET / HT"), .octets (ascii "TP/1.1\r\n\r\nbo"), .octets (ascii "dy")]

/-- Reads across both cuts, mixed with writing. -/
theorem requestInThree_replayed :
    requestInThree.IsPlain ∧
      readHead requestInThree =
        (.complete (ascii "GET / HTTP/1.1\r\n\r\nbo"), [.octets (ascii "dy")]) ∧
      ∃ (effects : List Effect) (after : Duplex Unit),
        Duplex.useAll [.read 0, .write (ascii "x"), .read 19, .read 0, .flush, .read 5]
          ⟨⟨ascii "GET / HTTP/1.1\r\n\r\nbo", [.octets (ascii "dy")]⟩, [], true⟩ =
            (.ok effects, after) ∧
        Duplex.delivered effects ++ after.reading.remaining = requestInThree.unread ∧
        after.sent = ascii "x" := by
  have hs : requestInThree.IsPlain :=
    .cons (by decide +kernel) (.cons (by decide +kernel) (.cons (by decide +kernel)
      (by simp [Incoming.IsPlain])))
  have hread : readHead requestInThree =
      (.complete (ascii "GET / HTTP/1.1\r\n\r\nbo"), [.octets (ascii "dy")]) := by
    decide +kernel
  obtain ⟨-, hall⟩ := complete_then_replayed hs hread
  obtain ⟨effects, after, hrun, hdelivered, -, -, hsent⟩ :=
    hall [.read 0, .write (ascii "x"), .read 19, .read 0, .flush, .read 5] [] true
  exact ⟨hs, hread, effects, after, hrun, hdelivered, by simpa [Use.written] using hsent⟩

end IsolatedSite.Connection
