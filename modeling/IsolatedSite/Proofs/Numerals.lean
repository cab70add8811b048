/-
# Numbers in text

What the reader of whole numbers accepts, as a grammar: one of some signs and digits
(`Decimal.IsSigned`), and around both what is trimmed (`Decimal.IsNumeral`).
`unsigned?_eq_some_iff` and `unsigned?_trim_eq_some_iff` say that the signs are none and the plus
sign, and that what is trimmed is all of Unicode's white space.  The same grammar with other signs
and other blanks says what a protocol allows, so that the two can be compared.

Many digits denote one number.  Those that it is written with are the ones that have no needless
zeros in front (`eq_ofNat_iff`).
-/
import IsolatedSite.Text.Blank
import IsolatedSite.Proofs.PlainText
import Mathlib.Data.List.Induction
import Mathlib.Data.List.TakeWhile

namespace IsolatedSite

/-! ## 1. Trimming -/

/-- What is trimmed stands at the ends. -/
theorem exists_trimEnd {α : Type} (p : α → Bool) (xs : List α) :
    ∃ back, xs = trimEnd p xs ++ back ∧ ∀ x ∈ back, p x = true := by
  refine ⟨(xs.reverse.takeWhile p).reverse, ?_, fun x hx => ?_⟩
  · rw [trimEnd, ← List.reverse_append, List.takeWhile_append_dropWhile, List.reverse_reverse]
  · exact List.mem_takeWhile_imp (List.mem_reverse.mp hx)

theorem exists_trimBoth {α : Type} (p : α → Bool) (xs : List α) :
    ∃ front back, xs = front ++ trimBoth p xs ++ back ∧ (∀ x ∈ front, p x = true) ∧
      ∀ x ∈ back, p x = true := by
  obtain ⟨back, hxs, hback⟩ := exists_trimEnd p (xs.dropWhile p)
  refine ⟨xs.takeWhile p, back, ?_, fun x hx => List.mem_takeWhile_imp hx, hback⟩
  rw [List.append_assoc, trimBoth, ← hxs, List.takeWhile_append_dropWhile]

/-- What may be trimmed is trimmed from around what may not. -/
theorem trimBoth_append {α : Type} {p : α → Bool} {front core back : List α}
    (hfront : ∀ x ∈ front, p x = true) (hcore : ∀ x ∈ core, p x = false)
    (hback : ∀ x ∈ back, p x = true) : trimBoth p (front ++ core ++ back) = core := by
  have hkept : ∀ xs : List α, (∀ x ∈ xs, p x = false) → xs.dropWhile p = xs := by
    intro xs hxs
    cases xs with
    | nil => rfl
    | cons x xs => exact List.dropWhile_cons_of_neg (by simp [hxs x List.mem_cons_self])
  have hend : trimEnd p (core ++ back) = core := by
    rw [trimEnd, List.reverse_append, List.dropWhile_append_of_pos (by simpa using hback),
      hkept _ (by simpa using hcore), List.reverse_reverse]
  rw [trimBoth, List.append_assoc, List.dropWhile_append_of_pos hfront]
  cases core with
  | nil =>
    have hgone : back.dropWhile p = [] := List.dropWhile_eq_nil_iff.mpr hback
    rw [List.nil_append, hgone]
    rfl
  | cons x core =>
    rw [List.cons_append, List.dropWhile_cons_of_neg (by simp [hcore x List.mem_cons_self])]
    exact hend

namespace Decimal

/-! ## 2. Digits -/

theorem value?_eq_some_iff {t : Text} {n : Nat} : value? t = some n ↔
    t ≠ [] ∧ (∀ c ∈ t, c.isDigit = true) ∧ Nat.ofDigitChars 10 t 0 = n := by
  constructor
  · intro h
    unfold value? at h
    split at h
    · rename_i hdigits
      exact ⟨hdigits.1, List.all_eq_true.mp hdigits.2, Option.some.inj h⟩
    · cases h
  · rintro ⟨hne, hdigits, rfl⟩
    exact if_pos ⟨hne, List.all_eq_true.mpr hdigits⟩

theorem below?_eq_some_iff {limit n : Nat} {t : Text} :
    below? limit t = some n ↔ value? t = some n ∧ n < limit := by
  simp [below?, Option.filter_eq_some_iff]

/-! ## 3. Numerals -/

/-- One of `signs`, and digits behind it that denote `n`. -/
def IsSigned (signs : List Text) (n : Nat) (t : Text) : Prop :=
  ∃ sign digits : Text, t = sign ++ digits ∧ sign ∈ signs ∧ digits ≠ [] ∧
    (∀ c ∈ digits, c.isDigit = true) ∧ Nat.ofDigitChars 10 digits 0 = n

/-- A signed number with characters around it that satisfy `blank`. -/
def IsNumeral (blank : Char → Bool) (signs : List Text) (n : Nat) (t : Text) : Prop :=
  ∃ front core back : Text, t = front ++ core ++ back ∧ IsSigned signs n core ∧
    (∀ c ∈ front, blank c = true) ∧ ∀ c ∈ back, blank c = true

/-- Fewer signs and blanks make fewer numerals. -/
theorem IsNumeral.mono {blank blank' : Char → Bool} {signs signs' : List Text} {n : Nat} {t : Text}
    (h : IsNumeral blank signs n t) (hblank : ∀ c, blank c = true → blank' c = true)
    (hsigns : ∀ sign ∈ signs, sign ∈ signs') : IsNumeral blank' signs' n t := by
  obtain ⟨front, core, back, ht, ⟨sign, digits, hcore, hsign, hdigits⟩, hfront, hback⟩ := h
  exact ⟨front, core, back, ht, ⟨sign, digits, hcore, hsigns sign hsign, hdigits⟩,
    fun c hc => hblank c (hfront c hc), fun c hc => hblank c (hback c hc)⟩

/-- **The reader of numbers** takes digits, with a plus sign or without one. -/
theorem unsigned?_eq_some_iff {limit n : Nat} {t : Text} :
    unsigned? limit t = some n ↔ IsSigned [[], ['+']] n t ∧ n < limit := by
  constructor
  · intro h
    unfold unsigned? at h
    split at h
    · rename_i digits
      obtain ⟨hvalue, hlt⟩ := below?_eq_some_iff.mp h
      exact ⟨⟨['+'], digits, rfl, by simp, value?_eq_some_iff.mp hvalue⟩, hlt⟩
    · obtain ⟨hvalue, hlt⟩ := below?_eq_some_iff.mp h
      exact ⟨⟨[], t, rfl, by simp, value?_eq_some_iff.mp hvalue⟩, hlt⟩
  · rintro ⟨⟨sign, digits, rfl, hsign, hdigits⟩, hlt⟩
    have hbelow : below? limit digits = some n :=
      below?_eq_some_iff.mpr ⟨value?_eq_some_iff.mpr hdigits, hlt⟩
    simp only [List.mem_cons, List.not_mem_nil, or_false] at hsign
    rcases hsign with rfl | rfl
    · -- the digits do not begin with a plus sign
      have hplus : ∀ rest, digits ≠ '+' :: rest := by
        rintro rest rfl
        exact absurd (hdigits.2.1 '+' List.mem_cons_self) (by decide)
      rw [List.nil_append, unsigned?.eq_2 limit digits hplus]
      exact hbelow
    · exact hbelow

/-- A sign and digits are not white. -/
theorem IsSigned.isBlank_eq {n : Nat} {t : Text} (h : IsSigned [[], ['+']] n t) :
    ∀ c ∈ t, Text.isBlank c = false := by
  obtain ⟨sign, digits, rfl, hsign, -, hdigits, -⟩ := h
  intro c hc
  rcases List.mem_append.mp hc with hc | hc
  · simp only [List.mem_cons, List.not_mem_nil, or_false] at hsign
    rcases hsign with rfl | rfl
    · cases hc
    · rw [List.mem_singleton.mp hc]
      decide
  · exact Text.isBlank_of_isDigit (hdigits c hc)

/-- **Trimmed numbers** have any white space around them. -/
theorem unsigned?_trim_eq_some_iff {limit n : Nat} {t : Text} :
    unsigned? limit (Text.trim t) = some n ↔
      IsNumeral Text.isBlank [[], ['+']] n t ∧ n < limit := by
  rw [unsigned?_eq_some_iff]
  constructor
  · rintro ⟨hcore, hlt⟩
    obtain ⟨front, back, ht, hfront, hback⟩ := exists_trimBoth Text.isBlank t
    exact ⟨⟨front, Text.trim t, back, ht, hcore, hfront, hback⟩, hlt⟩
  · rintro ⟨⟨front, core, back, rfl, hcore, hfront, hback⟩, hlt⟩
    have htrim : Text.trim (front ++ core ++ back) = core :=
      trimBoth_append hfront hcore.isBlank_eq hback
    exact ⟨htrim.symm ▸ hcore, hlt⟩

/-! ## 4. Canonical digits -/

/-- No number but 0 begins with 0. -/
theorem head?_ofNat_ne {n : Nat} (h : n ≠ 0) : (ofNat n).head? ≠ some '0' := by
  induction n using Nat.strongRecOn with
  | ind n ih =>
    by_cases hsmall : n < 10
    · have hall : ∀ n < 10, n ≠ 0 → (ofNat n).head? ≠ some '0' := by decide
      exact hall n hsmall h
    · have hle : 10 ≤ n := Nat.le_of_not_lt hsmall
      have hfront := ih (n / 10) (by omega) (by omega)
      rw [ofNat, Nat.toDigits_of_base_le (by decide) hle,
        List.head?_append_of_ne_nil _ Nat.toDigits_ne_nil]
      exact hfront

/-- A digit is the digit of its number. -/
theorem digitChar_of_isDigit {c : Char} (h : c.isDigit = true) :
    c.toNat - 48 < 10 ∧ Nat.digitChar (c.toNat - 48) = c := by
  have hrange : 48 ≤ c.toNat ∧ c.toNat ≤ 57 := by
    simp only [Char.isDigit, Bool.and_eq_true, decide_eq_true_eq, ge_iff_le] at h
    exact h
  have hlt : c.toNat - 48 < 10 := by omega
  refine ⟨hlt, Char.toNat_inj.mp ?_⟩
  rw [Nat.toNat_digitChar_of_lt_ten hlt]
  omega

/-- **Digits without needless zeros in front** are those that the number is written with.  The
induction takes the last digit off, as writing puts it there last. -/
theorem ofNat_ofDigitChars {digits : Text} (hne : digits ≠ [])
    (hdigits : ∀ c ∈ digits, c.isDigit = true) (hzero : digits.head? = some '0' → digits = ['0']) :
    ofNat (Nat.ofDigitChars 10 digits 0) = digits := by
  induction digits using List.reverseRecOn with
  | nil => exact absurd rfl hne
  | append_singleton front c ih =>
    obtain ⟨hlt, hc⟩ := digitChar_of_isDigit (hdigits c (by simp))
    have hvalue : Nat.ofDigitChars 10 (front ++ [c]) 0 =
        10 * Nat.ofDigitChars 10 front 0 + (c.toNat - 48) := by
      rw [Nat.ofDigitChars_append, Nat.ofDigitChars_cons, Nat.ofDigitChars_nil]
      rfl
    rw [hvalue]
    cases front with
    | nil =>
      rw [Nat.ofDigitChars_nil, Nat.mul_zero, Nat.zero_add, ofNat, Nat.toDigits_of_lt_base hlt, hc]
      rfl
    | cons d front =>
      have hd : d ≠ '0' := by
        rintro rfl
        simpa using hzero rfl
      have hfront := ih (by simp) (fun x hx => hdigits x (List.mem_append_left _ hx))
        (fun h => absurd (Option.some.inj h) hd)
      have hpos : 0 < Nat.ofDigitChars 10 (d :: front) 0 := by
        refine Nat.pos_of_ne_zero fun h => hd ?_
        rw [h] at hfront
        exact (List.cons.inj hfront).1.symm
      rw [ofNat, ← Nat.toDigits_append_toDigits (by decide) hpos hlt, Nat.toDigits_of_lt_base hlt,
        hc]
      exact congrArg (· ++ [c]) hfront

/-- What a number is written with denotes it and has no needless zeros in front. -/
theorem eq_ofNat_iff {digits : Text} {n : Nat} : digits = ofNat n ↔
    value? digits = some n ∧ ¬ (digits.head? = some '0' ∧ 1 < digits.length) := by
  constructor
  · rintro rfl
    refine ⟨value?_ofNat n, fun ⟨hzero, hlength⟩ => ?_⟩
    by_cases hn : n = 0
    · subst hn
      exact absurd hlength (by decide)
    · exact head?_ofNat_ne hn hzero
  · rintro ⟨hvalue, hzero⟩
    obtain ⟨hne, hdigits, rfl⟩ := value?_eq_some_iff.mp hvalue
    refine (ofNat_ofDigitChars hne hdigits fun hhead => ?_).symm
    cases digits with
    | nil => exact absurd rfl hne
    | cons c digits =>
      obtain rfl := Option.some.inj hhead
      cases digits with
      | nil => rfl
      | cons d digits => exact absurd ⟨rfl, by simp⟩ hzero

end Decimal

end IsolatedSite
