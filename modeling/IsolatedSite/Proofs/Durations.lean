/-
# Durations as figures

A number of microseconds that 64 bits hold is written in figures (`figures_ofMicroseconds`): the
quotient that it is divided to lies far below where binary numbers end, so it is never `inf`.
-/
import IsolatedSite.Number.Thousandths
import Mathlib.Tactic.Ring
import Mathlib.Tactic.Linarith

namespace IsolatedSite.Number

open Binary64

theorem nearest_le (r : Ratio) : nearest r ≤ r.1 / r.2 + 1 := by
  unfold nearest
  dsimp only
  split <;> omega

theorem power_pos (e : Int) : 0 < (power 2 e).1 ∧ 0 < (power 2 e).2 := by
  unfold power
  split
  · exact ⟨Nat.pow_pos (by decide), Nat.one_pos⟩
  · exact ⟨Nat.one_pos, Nat.pow_pos (by decide)⟩

theorem not_le_times {top m : Nat} {e : Int}
    (h : m * (power 2 e).1 < 2 ^ top * (power 2 e).2) :
    ¬ Ratio.le (power 2 top) (times m (power 2 e)) = true := by
  have htop : power 2 top = (2 ^ top, 1) := if_pos (Int.natCast_nonneg top)
  rw [Ratio.le, times, htop, decide_eq_true_eq, Nat.mul_one, Nat.not_le]
  exact h

/-- One more in the exponent is twice the number. -/
theorem power_succ (e : Int) :
    (power 2 (e + 1)).1 * (power 2 e).2 = 2 * (power 2 e).1 * (power 2 (e + 1)).2 := by
  unfold power
  by_cases he : 0 ≤ e
  · rw [if_pos he, if_pos (by omega)]
    have : (e + 1).toNat = e.toNat + 1 := by omega
    simp only [this, Nat.pow_eq, Nat.pow_succ]
    ring
  · rw [if_neg he]
    obtain rfl | hlt : e = -1 ∨ e < -1 := by omega
    · rfl
    · rw [if_neg (by omega)]
      have : (-e).toNat = (-(e + 1)).toNat + 1 := by omega
      simp only [this, Nat.pow_eq, Nat.pow_succ]
      ring

theorem exponentOf_le {r : Ratio} {k : Nat} (hpos : 0 < r.1) (h : r.1 < 2 ^ k * r.2) :
    exponentOf r ≤ k := by
  have hlog : Nat.log2 r.1 < k + (Nat.log2 r.2 + 1) := by
    rw [Nat.log2_lt (by omega), Nat.pow_add]
    exact Nat.lt_of_lt_of_le h (Nat.mul_le_mul_left _ Nat.lt_log2_self.le)
  unfold exponentOf
  dsimp only
  split <;> omega

/-- The nearest multiple of a power of two lies below a power that is far enough from both. -/
theorem nearest_mul_lt {r : Ratio} {k top : Nat} {e : Int} (hk : k + 1 < top) (he : e + 1 < top)
    (h : r.1 < 2 ^ k * r.2) :
    nearest (quotient r (power 2 e)) * (power 2 e).1 < 2 ^ top * (power 2 e).2 := by
  obtain ⟨half, rfl⟩ : ∃ half, top = half + 1 := ⟨top - 1, by omega⟩
  have hr : 0 < r.2 := Nat.pos_of_ne_zero fun hz => by simp [hz] at h
  have hkpow : 2 ^ k < 2 ^ half := Nat.pow_lt_pow_right (by decide) (by omega)
  have htop : 2 ^ (half + 1) = 2 ^ half + 2 ^ half := by rw [Nat.pow_succ, Nat.mul_two]
  have hhalf : 0 < 2 ^ half := Nat.two_pow_pos half
  have hnear := nearest_le (quotient r (power 2 e))
  unfold quotient power at *
  by_cases hsign : 0 ≤ e
  · simp only [if_pos hsign, Nat.pow_eq, Nat.mul_one] at *
    have hepow : 2 ^ e.toNat < 2 ^ half := Nat.pow_lt_pow_right (by decide) (by omega)
    have hquot : r.1 / r.2 < 2 ^ k := (Nat.div_lt_iff_lt_mul hr).mpr h
    calc nearest (r.1, r.2 * 2 ^ e.toNat) * 2 ^ e.toNat
        ≤ (r.1 / (r.2 * 2 ^ e.toNat) + 1) * 2 ^ e.toNat := Nat.mul_le_mul_right _ hnear
      _ = r.1 / r.2 / 2 ^ e.toNat * 2 ^ e.toNat + 2 ^ e.toNat := by
        rw [Nat.add_mul, Nat.one_mul, Nat.div_div_eq_div_mul]
      _ ≤ r.1 / r.2 + 2 ^ e.toNat := Nat.add_le_add_right (Nat.div_mul_le_self _ _) _
      _ < 2 ^ (half + 1) := by omega
  · simp only [if_neg hsign, Nat.pow_eq, Nat.mul_one] at *
    have hquot : r.1 * 2 ^ (-e).toNat / r.2 < 2 ^ k * 2 ^ (-e).toNat := by
      rw [Nat.div_lt_iff_lt_mul hr]
      have := Nat.mul_lt_mul_of_pos_right h (Nat.two_pow_pos (-e).toNat)
      linarith
    calc nearest (r.1 * 2 ^ (-e).toNat, r.2)
        ≤ r.1 * 2 ^ (-e).toNat / r.2 + 1 := hnear
      _ ≤ 2 ^ k * 2 ^ (-e).toNat := hquot
      _ < 2 ^ (half + 1) * 2 ^ (-e).toNat :=
        Nat.mul_lt_mul_of_pos_right (by omega) (Nat.two_pow_pos _)

/-- A significand that fills its bits is halved, and the number stays the same. -/
theorem half_mul_lt {m bound : Nat} {e : Int}
    (h : 2 * m * (power 2 e).1 < bound * (power 2 e).2) :
    m * (power 2 (e + 1)).1 < bound * (power 2 (e + 1)).2 := by
  refine Nat.lt_of_mul_lt_mul_right (a := (power 2 e).2) ?_
  calc m * (power 2 (e + 1)).1 * (power 2 e).2
      = m * ((power 2 (e + 1)).1 * (power 2 e).2) := Nat.mul_assoc _ _ _
    _ = 2 * m * (power 2 e).1 * (power 2 (e + 1)).2 := by rw [power_succ]; ring
    _ < bound * (power 2 e).2 * (power 2 (e + 1)).2 :=
      Nat.mul_lt_mul_of_pos_right h (power_pos _).2
    _ = bound * (power 2 (e + 1)).2 * (power 2 e).2 := by ring

/-- **A quotient far below the end of the numbers becomes a number**, which lies below the end. -/
theorem ofRatio_eq_finite (negative : Bool) {r : Ratio} {k : Nat} (hk : k + 1 < 1024)
    (h : r.1 < 2 ^ k * r.2) :
    ∃ m e, ofRatio negative r = .finite negative m e ∧
      m * (power 2 e).1 < 2 ^ 1024 * (power 2 e).2 := by
  unfold ofRatio
  by_cases hzero : r.1 = 0
  · rw [if_pos hzero]
    refine ⟨0, leastExponent, rfl, ?_⟩
    rw [Nat.zero_mul]
    exact Nat.mul_pos (pow_pos Nat.two_pos 1024) (power_pos leastExponent).2
  · rw [if_neg hzero]
    have hexp := exponentOf_le (Nat.pos_of_ne_zero hzero) h
    have hlow : leastExponent + 1 < 1024 := by decide
    have hlt := nearest_mul_lt (e := max leastExponent (exponentOf r)) hk (by omega) h
    dsimp only
    generalize max leastExponent (exponentOf r) = e at hlt ⊢
    generalize nearest (quotient r (power 2 e)) = m at hlt ⊢
    rw [← Nat.cast_ofNat (R := Int) (n := 1024), if_neg (not_le_times hlt)]
    by_cases hfull : m = Nat.pow 2 53
    · rw [if_pos hfull]
      refine ⟨Nat.pow 2 52, e + 1, rfl, half_mul_lt ?_⟩
      have hhalf : 2 * Nat.pow 2 52 = m := hfull ▸ rfl
      rw [hhalf]
      exact hlt
    · rw [if_neg hfull]
      exact ⟨m, e, rfl, hlt⟩

/-- **Microseconds are figures**: the duration is a whole number of thousandths. -/
theorem millionthsAsThousandths_eq {n : Nat} (h : n < 2 ^ 64) :
    ∃ thousandths, millionthsAsThousandths n = thousandthsText thousandths := by
  obtain ⟨m, e, hnat, hsize⟩ := ofRatio_eq_finite false (r := (n, 1)) (k := 64) (by decide)
    (by simpa using h)
  have hquot : (quotient (size m e) (1000000, 1)).1 <
      2 ^ 1005 * (quotient (size m e) (1000000, 1)).2 := by
    have hpos := (power_pos e).2
    have htop : 2 ^ 1024 = 2 ^ 1005 * 2 ^ 19 := by rw [← Nat.pow_add]
    calc m * (power 2 e).1 * 1
        = m * (power 2 e).1 := Nat.mul_one _
      _ < 2 ^ 1024 * (power 2 e).2 := hsize
      _ = 2 ^ 1005 * (2 ^ 19 * (power 2 e).2) := by rw [htop, Nat.mul_assoc]
      _ ≤ 2 ^ 1005 * ((power 2 e).2 * 1000000) := Nat.mul_le_mul_left _ (by omega)
  obtain ⟨m', e', hsec, -⟩ := ofRatio_eq_finite false (k := 1005) (by decide) hquot
  refine ⟨nearest (quotient (size m' e') (1, 1000)), ?_⟩
  rw [millionthsAsThousandths, Binary64.ofNat, hnat]
  dsimp only
  rw [hsec]

end IsolatedSite.Number
