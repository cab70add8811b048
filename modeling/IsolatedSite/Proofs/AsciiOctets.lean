/-
# ASCII octets

An octet up to 127 stands for its ASCII character and is part of no other one, so an ASCII
character is in a text exactly if its octet is among the octets of the text (`mem_encode_iff`).
The same is true of what is read of octets that need not be well formed (`mem_decodeLossy_iff`):
no octets above 127 are read as a character below 128, since the reader refuses longer forms than
needed at the octet that makes them so.  Only NUL is left out, which also stands for numbers that
no character has.
-/
import IsolatedSite.Proofs.Decoding
import Mathlib.Algebra.Group.Nat.Defs

namespace IsolatedSite.Utf8

/-! ## 1. Writing -/

/-- The octets of a character that is not ASCII are no ASCII octets. -/
theorem not_ascii_of_mem {c : Char} (hc : 128 ≤ c.toNat) {b : UInt8}
    (hb : b ∈ String.utf8EncodeChar c) : 0x7F < b := by
  have hval : c.val.toNat = c.toNat := rfl
  have hhigh : ∀ n, 0x80 ≤ n → n < 256 → (0x7F : UInt8) < UInt8.ofNat n := by
    intro n hlow hlt
    rw [UInt8.lt_iff_toNat_lt, UInt8.toNat_ofNat_of_lt' hlt]
    exact hlow
  have hvalid : c.toNat < 0x110000 := by
    rcases c.valid with h | h
    · exact Nat.lt_trans h (by decide)
    · exact h.2
  simp only [String.utf8EncodeChar, hval, if_neg (Nat.not_le_of_lt hc)] at hb
  split at hb
  · simp only [List.mem_cons, List.not_mem_nil, or_false] at hb
    rcases hb with rfl | rfl <;> exact hhigh _ (by omega) (by omega)
  · split at hb
    · simp only [List.mem_cons, List.not_mem_nil, or_false] at hb
      rcases hb with rfl | rfl | rfl <;> exact hhigh _ (by omega) (by omega)
    · simp only [List.mem_cons, List.not_mem_nil, or_false] at hb
      rcases hb with rfl | rfl | rfl | rfl <;> exact hhigh _ (by omega) (by omega)

theorem mem_utf8EncodeChar_iff {b : UInt8} (hb : b ≤ 0x7F) {c : Char} :
    b ∈ String.utf8EncodeChar c ↔ Char.ofNat b.toNat = c := by
  by_cases hc : c.toNat < 128
  · rw [utf8EncodeChar_eq_singleton hc, List.mem_singleton]
    constructor
    · rintro rfl
      rw [toNat_toUInt8 (by omega), Char.ofNat_toNat]
    · rintro rfl
      rw [toNat_ofNat_of_lt (toNat_lt_of_ascii hb)]
      exact UInt8.ofNat_toNat.symm
  · have hout : b ∉ String.utf8EncodeChar c := fun hmem =>
      absurd hb (UInt8.not_le.mpr (not_ascii_of_mem (Nat.le_of_not_lt hc) hmem))
    refine iff_of_false hout ?_
    rintro rfl
    rw [toNat_ofNat_of_lt (toNat_lt_of_ascii hb)] at hc
    exact hc (toNat_lt_of_ascii hb)

theorem utf8EncodeChar_ne_nil (c : Char) : String.utf8EncodeChar c ≠ [] := by
  rw [← List.length_pos_iff, String.length_utf8EncodeChar]
  exact Char.utf8Size_pos c

theorem encode_ne_nil {t : Text} (h : t ≠ []) : encode t ≠ [] := by
  cases t with
  | nil => exact absurd rfl h
  | cons c t =>
    rw [encode_cons]
    exact List.append_ne_nil_of_left_ne_nil (utf8EncodeChar_ne_nil c) _

/-- **An ASCII character is in a text** if its octet is among those of the text. -/
theorem mem_encode_iff {b : UInt8} (hb : b ≤ 0x7F) {t : Text} :
    b ∈ encode t ↔ Char.ofNat b.toNat ∈ t := by
  simp only [encode, List.mem_flatMap, mem_utf8EncodeChar_iff hb]
  constructor
  · rintro ⟨c, hc, rfl⟩
    exact hc
  · intro hmem
    exact ⟨_, hmem, rfl⟩

/-! ## 2. Reading -/

/-- What the reader has seen of an open character, with the least of what it may still see, is the
number of no ASCII character. -/
def State.IsFar : State → Prop
  | .idle => True
  | .inside owed low _ value => 128 ≤ (value * 64 + (low.toNat - 0x80)) * 64 ^ owed

instance : DecidablePred State.IsFar
  | .idle => inferInstanceAs (Decidable True)
  | .inside .. => inferInstanceAs (Decidable (_ ≤ _))

theorem isFar_start (b : UInt8) : (start b).2.IsFar :=
  Percent.forall_octet (P := fun b => (start b).2.IsFar) (by decide +kernel) b

/-- Six more bits leave the number as far as it was. -/
theorem State.IsFar.more {owed : Nat} {low high : UInt8} {value n : Nat}
    (h : State.IsFar (.inside owed low high value)) (hn : low.toNat - 0x80 ≤ n) :
    128 ≤ (value * 64 + n) * 64 ^ owed :=
  Nat.le_trans h (Nat.mul_le_mul_right _ (Nat.add_le_add_left hn _))

theorem isFar_step {s : State} (hs : s.IsFar) (b : UInt8) : (step s b).2.IsFar := by
  cases s with
  | idle => exact isFar_start b
  | inside owed low high value =>
    by_cases h : low ≤ b ∧ b ≤ high
    · have hmore := hs.more (Nat.sub_le_sub_right (UInt8.le_iff_toNat_le.mp h.1) 0x80)
      cases owed with
      | zero => simp [step, h, State.IsFar]
      | succ owed =>
        have hlow : (0x80 : UInt8).toNat - 0x80 = 0 := by decide
        simp only [step, if_pos h, State.IsFar]
        rw [hlow, Nat.add_zero, Nat.mul_assoc, ← Nat.pow_succ']
        exact hmore
    · simp only [step, if_neg h]
      exact isFar_start b

/-- A number from 128 on is that of no ASCII character but NUL. -/
theorem toNat_ofNat_of_le {n : Nat} (hn : 128 ≤ n) :
    (Char.ofNat n).toNat = 0 ∨ 128 ≤ (Char.ofNat n).toNat := by
  by_cases h : n.isValidChar
  · right
    rw [Char.ofNat, dif_pos h]
    exact hn
  · left
    rw [Char.ofNat, dif_neg h]
    rfl

/-- An ASCII character that is read of an octet outside a character is the octet. -/
theorem eq_of_mem_start {b : UInt8} {c : Char} (h : some c ∈ (start b).1) :
    c = Char.ofNat b.toNat ∧ b ≤ 0x7F := by
  unfold start at h
  split_ifs at h with hb <;> simp at h
  exact ⟨h, hb⟩

theorem eq_of_mem_step {s : State} (hs : s.IsFar) {b : UInt8} {c : Char} (hpos : 0 < c.toNat)
    (hc : c.toNat < 128) (h : some c ∈ (step s b).1) : c = Char.ofNat b.toNat ∧ b ≤ 0x7F := by
  cases s with
  | idle => exact eq_of_mem_start h
  | inside owed low high value =>
    by_cases hrange : low ≤ b ∧ b ≤ high
    · cases owed with
      | succ owed => simp [step, if_pos hrange] at h
      | zero =>
        simp only [step, if_pos hrange, List.mem_singleton, Option.some.injEq] at h
        have hmore := hs.more (Nat.sub_le_sub_right (UInt8.le_iff_toNat_le.mp hrange.1) 0x80)
        rw [Nat.pow_zero, Nat.mul_one] at hmore
        rcases toNat_ofNat_of_le hmore with hzero | hfar
        · rw [← h] at hzero
          omega
        · rw [← h] at hfar
          omega
    · simp only [step, if_neg hrange, List.mem_cons, reduceCtorEq, false_or] at h
      exact eq_of_mem_start h

/-- The induction is on the octets; an open character is followed through its number. -/
theorem mem_of_mem_run {s : State} (hs : s.IsFar) {b : Bytes} {c : Char} (hpos : 0 < c.toNat)
    (hc : c.toNat < 128) (h : some c ∈ run s b) : ∃ x ∈ b, c = Char.ofNat x.toNat ∧ x ≤ 0x7F := by
  induction b generalizing s with
  | nil => cases s <;> simp [run, finish] at h
  | cons x b ih =>
    rcases List.mem_append.mp h with h | h
    · exact ⟨x, List.mem_cons_self, eq_of_mem_step hs hpos hc h⟩
    · obtain ⟨y, hy, heq⟩ := ih (isFar_step hs x) h
      exact ⟨y, List.mem_cons_of_mem _ hy, heq⟩

/-- **An ASCII character is read** only where its octet stands, and there always. -/
theorem mem_decodeLossy_iff {x : UInt8} (hpos : 0 < x) (hx : x ≤ 0x7F) {b : Bytes} :
    Char.ofNat x.toNat ∈ decodeLossy b ↔ x ∈ b := by
  have hnat : (Char.ofNat x.toNat).toNat = x.toNat := toNat_ofNat_of_lt (toNat_lt_of_ascii hx)
  constructor
  · intro h
    obtain ⟨e, he, heq⟩ := List.mem_map.mp h
    cases e with
    | none =>
      -- what stands for malformed octets is not ASCII
      have hlt := toNat_lt_of_ascii hx
      rw [← hnat, ← heq] at hlt
      exact absurd hlt (by decide)
    | some c =>
      obtain rfl : c = Char.ofNat x.toNat := heq
      have hidle : State.IsFar .idle := trivial
      obtain ⟨y, hy, hchar, hascii⟩ := mem_of_mem_run hidle
        (by rw [hnat]; exact UInt8.lt_iff_toNat_lt.mp hpos)
        (by rw [hnat]; exact toNat_lt_of_ascii hx) he
      have hsame : x.toNat = y.toNat := by
        rw [← hnat, hchar, toNat_ofNat_of_lt (toNat_lt_of_ascii hascii)]
      exact UInt8.toNat_inj.mp hsame ▸ hy
  · intro h
    obtain ⟨front, rest, rfl⟩ := List.append_of_mem h
    rw [decodeLossy_append_ascii hx]
    simp

end IsolatedSite.Utf8
