/-
# Characters of logged times

The two forms of a time in an access log consist of letters, digits and a few marks between them
(`isTimeText_commonText`, `isTimeText_isoText`).  So nothing in a time is taken for the end of it:
no bracket or quotation mark, no line break, and no sign that the name of a variable begins with.
-/
import IsolatedSite.Calendar.LogTime
import IsolatedSite.Proofs.DateReading

namespace IsolatedSite.Calendar

/-- Letters, digits and the marks between the parts of a time. -/
def IsTimeChar (c : Char) : Prop := c.isAlphanum = true ∨ c ∈ ['/', ':', ' ', '+', '-', '.']

instance (c : Char) : Decidable (IsTimeChar c) := inferInstanceAs (Decidable (_ ∨ _))

/-- A text of such characters. -/
def IsTimeText (t : Text) : Prop := ∀ c ∈ t, IsTimeChar c

-- by the list, and not by going through all characters
instance (t : Text) : Decidable (IsTimeText t) := List.decidableBAll IsTimeChar t

/-- Letters and digits are printable. -/
theorem isPrintable_of_isAlphanum {c : Char} (h : c.isAlphanum = true) : IsPrintable c := by
  have hkind : (c.isUpper || c.isLower || c.isDigit) = true := h
  rw [Bool.or_eq_true, Bool.or_eq_true] at hkind
  rcases hkind with (hupper | hlower) | hdigit
  · have hrange : decide (65 ≤ c.val ∧ c.val ≤ 90) = true := hupper
    obtain ⟨hlow, hhigh⟩ := of_decide_eq_true hrange
    have hlow : 65 ≤ c.toNat := UInt32.le_iff_toNat_le.mp hlow
    have hhigh : c.toNat ≤ 90 := UInt32.le_iff_toNat_le.mp hhigh
    exact ⟨by omega, by omega⟩
  · have hrange : (decide (97 ≤ c.val) && decide (c.val ≤ 122)) = true := hlower
    rw [Bool.and_eq_true] at hrange
    have hlow : 97 ≤ c.toNat := UInt32.le_iff_toNat_le.mp (of_decide_eq_true hrange.1)
    have hhigh : c.toNat ≤ 122 := UInt32.le_iff_toNat_le.mp (of_decide_eq_true hrange.2)
    exact ⟨by omega, by omega⟩
  · exact Decimal.isPrintable_of_isDigit hdigit

theorem IsTimeChar.isPrintable {c : Char} (h : IsTimeChar c) : IsPrintable c := by
  rcases h with h | h
  · exact isPrintable_of_isAlphanum h
  · have hmarks : Text.IsPlain ['/', ':', ' ', '+', '-', '.'] := by decide
    exact hmarks c h

theorem IsTimeText.isPlain {t : Text} (h : IsTimeText t) : Text.IsPlain t := fun c hc =>
  (h c hc).isPrintable

theorem isTimeText_append {s t : Text} : IsTimeText (s ++ t) ↔ IsTimeText s ∧ IsTimeText t :=
  List.forall_mem_append

theorem isTimeText_cons {c : Char} {t : Text} :
    IsTimeText (c :: t) ↔ IsTimeChar c ∧ IsTimeText t := List.forall_mem_cons

/-- Any other character is absent. -/
theorem IsTimeText.not_mem {t : Text} (h : IsTimeText t) {c : Char} (hc : ¬ IsTimeChar c) :
    c ∉ t := fun hmem => hc (h c hmem)

theorem isTimeText_padded (width n : Nat) : IsTimeText (Decimal.padded width n) := by
  intro c hc
  have hdigit := Decimal.isDigit_of_mem_padded hc
  exact .inl (by simp [Char.isAlphanum, hdigit])

theorem isTimeText_monthName (m : Nat) : IsTimeText (monthName m) := by
  rw [monthName, List.getD_eq_getElem?_getD]
  cases hat : monthNames[m - 1]? with
  | none => simp [IsTimeText]
  | some t =>
    have hall : ∀ t ∈ monthNames, IsTimeText t := by decide
    exact hall t (List.mem_of_getElem? hat)

theorem isTimeText_yearText (y : Int) : IsTimeText (yearText y) := by
  refine isTimeText_append.mpr ⟨?_, isTimeText_padded _ _⟩
  split
  · decide
  · split <;> decide

theorem isTimeText_clockText (t : Instant) : IsTimeText t.clockText := by
  have hcolon : IsTimeChar ':' := by decide
  simp [Instant.clockText, isTimeText_append, isTimeText_cons, isTimeText_padded, hcolon]

theorem isTimeText_offsetText (sep : Text) (hsep : IsTimeText sep) (offset : Int) :
    IsTimeText (offsetText sep offset) := by
  have hsign : IsTimeChar (if offset < 0 then '-' else '+') := by split <;> decide
  simp [offsetText, isTimeText_append, isTimeText_cons, isTimeText_padded, hsep, hsign]

theorem isTimeText_fractionText (nanos : Nat) : IsTimeText (fractionText nanos) := by
  have hgroup : ∀ width n, IsTimeText ('.' :: Decimal.padded width n) := fun width n =>
    isTimeText_cons.mpr ⟨by decide, isTimeText_padded width n⟩
  unfold fractionText
  dsimp only
  split
  · decide
  · split
    · exact hgroup _ _
    · split <;> exact hgroup _ _

/-- **The time of the common log format.** -/
theorem isTimeText_commonText (t : LocalTime) : IsTimeText t.commonText := by
  have hslash : IsTimeChar '/' := by decide
  have hcolon : IsTimeChar ':' := by decide
  have hspace : IsTimeChar ' ' := by decide
  simp [LocalTime.commonText, isTimeText_append, isTimeText_cons, isTimeText_padded,
    isTimeText_monthName, isTimeText_yearText, isTimeText_clockText, hslash, hcolon, hspace,
    isTimeText_offsetText [] (by decide)]

/-- **The time of the other form.** -/
theorem isTimeText_isoText (t : LocalTime) : IsTimeText t.isoText := by
  have hdash : IsTimeChar '-' := by decide
  have hletter : IsTimeChar 'T' := by decide
  simp [LocalTime.isoText, isTimeText_append, isTimeText_cons, isTimeText_padded,
    isTimeText_yearText, isTimeText_clockText, isTimeText_fractionText, hdash, hletter,
    isTimeText_offsetText [':'] (by decide)]

end IsolatedSite.Calendar
