/-
# Well-formed octets

The strict reader answers on the encodings of texts, and on nothing else
(`decode?_eq_some_iff`).  One half is `decode?_encode`.  For the other one the machine is followed
through each character: what an open character has taken in is the beginning of the octets of every
character that it can still become (`State.HasBegun`), so at its last octet they are the octets of
the character that is read.
-/
import IsolatedSite.Proofs.Decoding
import Mathlib.Algebra.Group.Nat.Defs

namespace IsolatedSite.Utf8

/-! ## 1. The octets of a number -/

theorem toNat_val_ofNat {v : Nat} (h : v.isValidChar) : (Char.ofNat v).val.toNat = v := by
  rw [Char.ofNat, dif_pos h]
  rfl

/-- The last `owed + 1` octets of a character with the number `v`, six bits in each. -/
def continuation : (owed : Nat) → (v : Nat) → Bytes
  | 0, v => [UInt8.ofNat (v % 64 + 128)]
  | owed + 1, v => UInt8.ofNat (v / 64 ^ (owed + 1) % 64 + 128) :: continuation owed v

theorem utf8EncodeChar_of_two {v : Nat} (hlow : 0x7F < v) (hhigh : v ≤ 0x7FF) :
    String.utf8EncodeChar (Char.ofNat v) = UInt8.ofNat (v / 64 + 192) :: continuation 0 v := by
  have hvalid : v.isValidChar := Or.inl (by omega)
  have hlead : v / 64 % 32 = v / 64 := by omega
  simp only [String.utf8EncodeChar, toNat_val_ofNat hvalid]
  rw [if_neg (by omega), if_pos hhigh, hlead]
  rfl

theorem utf8EncodeChar_of_three {v : Nat} (hvalid : v.isValidChar) (hlow : 0x7FF < v)
    (hhigh : v ≤ 0xFFFF) :
    String.utf8EncodeChar (Char.ofNat v) = UInt8.ofNat (v / 4096 + 224) :: continuation 1 v := by
  have hlead : v / 4096 % 16 = v / 4096 := by omega
  simp only [String.utf8EncodeChar, toNat_val_ofNat hvalid]
  rw [if_neg (by omega), if_neg (by omega), if_pos hhigh, hlead]
  rfl

theorem utf8EncodeChar_of_four {v : Nat} (hlow : 0xFFFF < v) (hhigh : v < 0x110000) :
    String.utf8EncodeChar (Char.ofNat v) = UInt8.ofNat (v / 262144 + 240) :: continuation 2 v := by
  have hvalid : v.isValidChar := Or.inr ⟨by omega, hhigh⟩
  have hlead : v / 262144 % 8 = v / 262144 := by omega
  simp only [String.utf8EncodeChar, toNat_val_ofNat hvalid]
  rw [if_neg (by omega), if_neg (by omega), if_neg (by omega), hlead]
  rfl

/-! ## 2. Open characters -/

/-- What has been taken in of the open character is `front`: whichever six bits come next and
whatever follows them, `front` and the octets of both are a character. -/
def State.HasBegun (front : Bytes) : State → Prop
  | .idle => front = []
  | .inside owed low high value => 0x80 ≤ low.toNat ∧ high.toNat ≤ 0xBF ∧
      ∀ k m, Continues low high k → m < 64 ^ owed →
        String.utf8EncodeChar (Char.ofNat ((value * 64 + k) * 64 ^ owed + m)) =
          front ++ continuation owed ((value * 64 + k) * 64 ^ owed + m)

theorem hasBegun_of_two {n : Nat} (hlow : 2 ≤ n) (hhigh : n < 32) :
    State.HasBegun [UInt8.ofNat (n + 192)] (.inside 0 0x80 0xBF n) := by
  refine ⟨by decide, by decide, fun k m hk hm => ?_⟩
  have hlt := hk.lt
  obtain rfl : m = 0 := by simpa using hm
  have hlead : (n * 64 + k) / 64 = n := by omega
  rw [Nat.pow_zero, Nat.mul_one, Nat.add_zero, utf8EncodeChar_of_two (by omega) (by omega), hlead]
  rfl

theorem hasBegun_of_three {n : Nat} (hn : n < 16) : State.HasBegun [UInt8.ofNat (n + 224)]
    (.inside 1 (if n = 0 then 0xA0 else 0x80) (if n = 13 then 0x9F else 0xBF) n) := by
  refine ⟨by split <;> decide, by split <;> decide, fun k m hk hm => ?_⟩
  have hlt := hk.lt
  have hlow : n = 0 → 32 ≤ k := by
    intro h
    have hle : 160 ≤ k + 128 := by simpa [h] using hk.low_le
    omega
  have hhigh : n = 13 → k < 32 := by
    intro h
    have hle : k + 128 ≤ 159 := by simpa [h] using hk.le_high
    omega
  rw [Nat.pow_one] at hm ⊢
  have hvalid : ((n * 64 + k) * 64 + m).isValidChar := by
    by_cases h : n ≤ 13
    · exact Or.inl (by omega)
    · exact Or.inr ⟨by omega, by omega⟩
  have hlead : ((n * 64 + k) * 64 + m) / 4096 = n := by omega
  rw [utf8EncodeChar_of_three hvalid (by omega) (by omega), hlead]
  rfl

theorem hasBegun_of_four {n : Nat} (hn : n < 5) : State.HasBegun [UInt8.ofNat (n + 240)]
    (.inside 2 (if n = 0 then 0x90 else 0x80) (if n = 4 then 0x8F else 0xBF) n) := by
  refine ⟨by split <;> decide, by split <;> decide, fun k m hk hm => ?_⟩
  have hlt := hk.lt
  have hlow : n = 0 → 16 ≤ k := by
    intro h
    have hle : 144 ≤ k + 128 := by simpa [h] using hk.low_le
    omega
  have hhigh : n = 4 → k < 16 := by
    intro h
    have hle : k + 128 ≤ 143 := by simpa [h] using hk.le_high
    omega
  have hsquare : 64 ^ 2 = 4096 := by decide
  rw [hsquare] at hm ⊢
  have hlead : ((n * 64 + k) * 4096 + m) / 262144 = n := by omega
  rw [utf8EncodeChar_of_four (by omega) (by omega), hlead]
  rfl

/-- The first octet of a character: an ASCII one, one that no character begins with, or one that
opens a character. -/
theorem start_cases (b : UInt8) :
    (b ≤ 0x7F ∧ start b = ([some (Char.ofNat b.toNat)], .idle)) ∨ none ∈ (start b).1 ∨
      ∃ s, start b = ([], s) ∧ s.HasBegun [b] := by
  have hb : UInt8.ofNat b.toNat = b := UInt8.ofNat_toNat
  by_cases hascii : b ≤ 0x7F
  · exact Or.inl ⟨hascii, if_pos hascii⟩
  refine Or.inr ?_
  have hbad : b < 0xC2 ∨ 0xF4 < b → none ∈ (start b).1 :=
    Percent.forall_octet (P := fun b => ¬ b ≤ 0x7F → b < 0xC2 ∨ 0xF4 < b → none ∈ (start b).1)
      (by decide +kernel) b hascii
  by_cases hrange : b < 0xC2 ∨ 0xF4 < b
  · exact Or.inl (hbad hrange)
  refine Or.inr ?_
  obtain ⟨hlow, hhigh⟩ : 194 ≤ b.toNat ∧ b.toNat ≤ 244 := by
    simp only [not_or, UInt8.not_lt, UInt8.le_iff_toNat_le] at hrange
    exact hrange
  by_cases htwo : b.toNat < 224
  · obtain ⟨n, hn⟩ : ∃ n, b.toNat = n + 192 := ⟨b.toNat - 192, by omega⟩
    rw [← hb, hn]
    exact ⟨_, start_of_two (by omega) (by omega), hasBegun_of_two (by omega) (by omega)⟩
  · by_cases hthree : b.toNat < 240
    · obtain ⟨n, hn⟩ : ∃ n, b.toNat = n + 224 := ⟨b.toNat - 224, by omega⟩
      rw [← hb, hn]
      exact ⟨_, start_of_three (by omega), hasBegun_of_three (by omega)⟩
    · obtain ⟨n, hn⟩ : ∃ n, b.toNat = n + 240 := ⟨b.toNat - 240, by omega⟩
      rw [← hb, hn]
      exact ⟨_, start_of_four (by omega), hasBegun_of_four (by omega)⟩

/-! ## 3. Runs -/

/-- One more octet of an open character that is not its last. -/
theorem State.HasBegun.more {front : Bytes} {owed : Nat} {low high : UInt8} {value k : Nat}
    (h : State.HasBegun front (.inside (owed + 1) low high value)) (hk : Continues low high k) :
    State.HasBegun (front ++ [UInt8.ofNat (k + 128)]) (.inside owed 0x80 0xBF (value * 64 + k)) := by
  refine ⟨by decide, by decide, fun k' m hk' hm => ?_⟩
  have hlt := hk.lt
  have hlt' := hk'.lt
  have hm' : k' * 64 ^ owed + m < 64 ^ (owed + 1) := by
    calc k' * 64 ^ owed + m < k' * 64 ^ owed + 64 ^ owed := Nat.add_lt_add_left hm _
      _ = (k' + 1) * 64 ^ owed := (Nat.succ_mul k' _).symm
      _ ≤ 64 * 64 ^ owed := Nat.mul_le_mul_right _ hlt'
      _ = 64 ^ (owed + 1) := Nat.pow_succ'.symm
  have hv : ((value * 64 + k) * 64 + k') * 64 ^ owed + m =
      (value * 64 + k) * 64 ^ (owed + 1) + (k' * 64 ^ owed + m) := by
    rw [Nat.pow_succ', Nat.add_mul, Nat.mul_assoc, Nat.add_assoc]
  have hbits : ((value * 64 + k) * 64 ^ (owed + 1) + (k' * 64 ^ owed + m)) / 64 ^ (owed + 1) % 64 =
      k := by
    rw [Nat.add_comm, Nat.add_mul_div_right _ _ (Nat.pow_pos (by decide)),
      Nat.div_eq_of_lt hm']
    omega
  rw [hv, h.2.2 k _ hk hm', continuation, hbits, List.append_assoc]
  rfl

/-- The last octet of an open character. -/
theorem State.HasBegun.last {front : Bytes} {low high : UInt8} {value k : Nat}
    (h : State.HasBegun front (.inside 0 low high value)) (hk : Continues low high k) :
    String.utf8EncodeChar (Char.ofNat (value * 64 + k)) = front ++ [UInt8.ofNat (k + 128)] := by
  have hlt := hk.lt
  have hbits : (value * 64 + k) % 64 = k := by omega
  have hchar := h.2.2 k 0 hk (by decide)
  rw [Nat.pow_zero, Nat.mul_one, Nat.add_zero, continuation, hbits] at hchar
  exact hchar

/-- An octet in the range that is asked for has six bits behind its mark. -/
theorem exists_continues {low high b : UInt8} (hlow : 0x80 ≤ low.toNat) (hhigh : high.toNat ≤ 0xBF)
    (h : low ≤ b ∧ b ≤ high) : ∃ k, b = UInt8.ofNat (k + 128) ∧ Continues low high k := by
  have hle := UInt8.le_iff_toNat_le.mp h.1
  have hge := UInt8.le_iff_toNat_le.mp h.2
  have hk : b.toNat - 128 + 128 = b.toNat := by omega
  refine ⟨b.toNat - 128, ?_, by omega, by omega, by omega⟩
  rw [hk]
  exact UInt8.ofNat_toNat.symm

/-- **Run lemma.**  Octets without anything malformed, behind what the open character has taken in,
are those of the text that is read.  The induction is on the octets. -/
theorem append_eq_encode_of_run {s : State} {front b : Bytes} {t : Text} (hs : s.HasBegun front)
    (h : run s b = t.map some) : front ++ b = encode t := by
  induction b generalizing s front t with
  | nil =>
    cases s with
    | idle =>
      obtain rfl : t = [] := by simpa [run, finish] using h.symm
      rw [List.append_nil]
      exact hs
    | inside owed low high value =>
      cases t with
      | nil => simp [run, finish] at h
      | cons c t => simp [run, finish] at h
  | cons x b ih =>
    have hnone : none ∉ (step s x).1 := fun hmem => by
      have hmem' : none ∈ t.map some := by
        rw [← h, run]
        exact List.mem_append_left _ hmem
      simp at hmem'
    cases s with
    | idle =>
      obtain rfl : front = [] := hs
      rcases start_cases x with ⟨hx, hstart⟩ | hbad | ⟨s, hstart, hbegun⟩
      · rw [run, step, hstart] at h
        cases t with
        | nil => simp at h
        | cons c t =>
          obtain ⟨rfl, hrest⟩ : Char.ofNat x.toNat = c ∧ run .idle b = t.map some := by simpa using h
          have hchar : String.utf8EncodeChar (Char.ofNat x.toNat) = [x] := by
            simpa [encode, asciiText] using encode_asciiText (b := [x]) (by simpa using hx)
          rw [encode_cons, hchar, ← ih (s := .idle) rfl hrest]
          rfl
      · exact absurd hbad hnone
      · rw [run, step, hstart] at h
        simpa using ih hbegun h
    | inside owed low high value =>
      by_cases hrange : low ≤ x ∧ x ≤ high
      · obtain ⟨k, rfl, hk⟩ := exists_continues hs.1 hs.2.1 hrange
        rw [run, step_continuation hk] at h
        cases owed with
        | zero =>
          cases t with
          | nil => simp at h
          | cons c t =>
            obtain ⟨rfl, hrest⟩ : Char.ofNat (value * 64 + k) = c ∧ run .idle b = t.map some := by
              simpa using h
            rw [encode_cons, hs.last hk, ← ih (s := .idle) rfl hrest]
            simp
        | succ owed =>
          have := ih (hs.more hk) h
          simpa using this
      · exact absurd (by simp [step, hrange]) hnone

/-- **The strict reader** answers on the octets of a text with the text, and on nothing else. -/
theorem decode?_eq_some_iff {b : Bytes} {t : Text} : decode? b = some t ↔ b = encode t := by
  constructor
  · intro h
    have hidle : State.HasBegun [] .idle := rfl
    simpa using append_eq_encode_of_run hidle (run_of_decode? h)
  · rintro rfl
    exact decode?_encode t

end IsolatedSite.Utf8
