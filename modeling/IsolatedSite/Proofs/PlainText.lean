/-
# Plain text and its octets

Numbers, dates and the names that the server makes up hold printable ASCII only.  Such a text has
one octet for each character (`Utf8.encode_eq_map`), reads back from them (`asciiText_map`), and
is always fit to be the value of a header field (`Text.IsPlain.isValueByte_encode`).
-/
import IsolatedSite.Calendar.HttpDate
import IsolatedSite.Http.Token
import IsolatedSite.Text.Blank
import IsolatedSite.Text.Utf8
import Mathlib.Data.List.Basic

namespace IsolatedSite

/-! ## 1. Printable characters -/

/-- The characters from the space to the tilde. -/
def IsPrintable (c : Char) : Prop := 32 ≤ c.toNat ∧ c.toNat < 127

instance (c : Char) : Decidable (IsPrintable c) := inferInstanceAs (Decidable (_ ∧ _))

/-- A text of printable characters. -/
def Text.IsPlain (t : Text) : Prop := ∀ c ∈ t, IsPrintable c

-- by the list, and not by going through all characters
instance (t : Text) : Decidable (Text.IsPlain t) := List.decidableBAll IsPrintable t

theorem Text.IsPlain.append {s t : Text} (hs : Text.IsPlain s) (ht : Text.IsPlain t) :
    Text.IsPlain (s ++ t) := by
  intro c hc
  rcases List.mem_append.mp hc with hc | hc
  · exact hs c hc
  · exact ht c hc

theorem Text.IsPlain.cons {c : Char} {t : Text} (hc : IsPrintable c) (ht : Text.IsPlain t) :
    Text.IsPlain (c :: t) := by
  intro d hd
  rcases List.mem_cons.mp hd with rfl | hd
  · exact hc
  · exact ht d hd

/-- An entry of a list of plain texts is plain, also where the list has none. -/
theorem isPlain_getD {l : List Text} (h : ∀ t ∈ l, Text.IsPlain t) (i : Nat) :
    Text.IsPlain (l.getD i []) := by
  rw [List.getD_eq_getElem?_getD]
  cases hi : l[i]? with
  | none => simp [Text.IsPlain]
  | some t => exact h t (List.mem_of_getElem? hi)

/-! ## 2. Octets -/

theorem utf8EncodeChar_eq_singleton {c : Char} (h : c.toNat < 128) :
    String.utf8EncodeChar c = [c.toNat.toUInt8] := by
  have hsize : c.utf8Size = 1 := by
    rw [Char.utf8Size_eq_one_iff]
    exact UInt32.le_iff_toNat_le.mpr (by simpa using Nat.lt_succ_iff.mp h)
  rw [String.utf8EncodeChar_eq_singleton hsize]
  rfl

/-- One octet for each character. -/
theorem Utf8.encode_eq_map {t : Text} (h : ∀ c ∈ t, c.toNat < 128) :
    Utf8.encode t = t.map fun c => c.toNat.toUInt8 := by
  induction t with
  | nil => rfl
  | cons c t ih =>
    have hc : String.utf8EncodeChar c = [c.toNat.toUInt8] :=
      utf8EncodeChar_eq_singleton (h c (by simp))
    have ht : Utf8.encode t = t.map fun c => c.toNat.toUInt8 := ih fun d hd => h d (by simp [hd])
    rw [Utf8.encode, List.flatMap_cons, hc, List.map_cons, ← ht]
    rfl

theorem toNat_toUInt8 {n : Nat} (h : n < 256) : n.toUInt8.toNat = n := by
  simp only [Nat.toUInt8, UInt8.toNat_ofNat']
  omega

/-- ASCII text reads back from its octets. -/
theorem asciiText_map {t : Text} (h : ∀ c ∈ t, c.toNat < 128) :
    asciiText (t.map fun c => c.toNat.toUInt8) = t := by
  rw [asciiText, List.map_map]
  refine (List.map_congr_left fun c hc => ?_).trans (List.map_id t)
  have hlt := h c hc
  rw [Function.comp_apply, toNat_toUInt8 (by omega), Char.ofNat_toNat, id]

theorem Text.IsPlain.lt {t : Text} (h : Text.IsPlain t) : ∀ c ∈ t, c.toNat < 128 := fun c hc => by
  have := (h c hc).2
  omega

/-- Octets in which every character is well formed are read as a text. -/
theorem Utf8.decode?_of_run {b : Bytes} {t : Text} (h : run .idle b = t.map some) :
    Utf8.decode? b = some t := by
  rw [Utf8.decode?, h]
  clear h
  induction t with
  | nil => rfl
  | cons c t ih => simp [ih]

/-- ASCII octets are well formed, and each is a character. -/
theorem Utf8.decode?_of_ascii {b : Bytes} (h : ∀ x ∈ b, x ≤ 0x7F) :
    Utf8.decode? b = some (asciiText b) := by
  refine Utf8.decode?_of_run ?_
  induction b with
  | nil => rfl
  | cons x b ih =>
    have hx : start x = ([some (Char.ofNat x.toNat)], .idle) := if_pos (h x (by simp))
    rw [run, step, hx, ih fun y hy => h y (by simp [hy])]
    rfl

/-- **Plain text fits into a header field.** -/
theorem Text.IsPlain.isValueByte_encode {t : Text} (h : Text.IsPlain t) :
    (Utf8.encode t).all Http.isValueByte = true := by
  rw [Utf8.encode_eq_map h.lt, List.all_eq_true]
  intro b hb
  obtain ⟨c, hc, rfl⟩ := List.mem_map.mp hb
  obtain ⟨hlow, hhigh⟩ := h c hc
  have hnat : c.toNat.toUInt8.toNat = c.toNat := toNat_toUInt8 (by omega)
  have hle : (32 : UInt8) ≤ c.toNat.toUInt8 := by
    rw [UInt8.le_iff_toNat_le, hnat]
    exact hlow
  have hne : c.toNat.toUInt8 ≠ 127 := by
    intro heq
    rw [heq] at hnat
    exact absurd hnat (by simp; omega)
  simp [Http.isValueByte, hle, hne]

/-- Plain text is what is seen of its octets. -/
theorem Text.IsPlain.visibleText?_encode {t : Text} (h : Text.IsPlain t) :
    Http.visibleText? (Utf8.encode t) = some t := by
  have hall : (Utf8.encode t).all Http.isVisibleByte = true := by
    rw [Utf8.encode_eq_map h.lt, List.all_eq_true]
    intro b hb
    obtain ⟨c, hc, rfl⟩ := List.mem_map.mp hb
    obtain ⟨hlow, hhigh⟩ := h c hc
    have hnat : c.toNat.toUInt8.toNat = c.toNat := toNat_toUInt8 (by omega)
    simp only [Http.isVisibleByte, Bool.or_eq_true, Bool.and_eq_true, decide_eq_true_eq,
      UInt8.le_iff_toNat_le, hnat]
    exact Or.inr ⟨hlow, Nat.le_of_lt_succ hhigh⟩
  rw [Http.visibleText?, if_pos hall, Utf8.encode_eq_map h.lt, asciiText_map h.lt]

/-! ## 3. Numbers -/

namespace Decimal

theorem isDigit_of_mem_ofNat {n : Nat} {c : Char} (h : c ∈ ofNat n) : c.isDigit = true :=
  Nat.isDigit_of_mem_toDigits (by decide) (by decide) h

theorem isPrintable_of_isDigit {c : Char} (h : c.isDigit = true) : IsPrintable c := by
  simp only [Char.isDigit, Bool.and_eq_true, decide_eq_true_eq] at h
  have hlow : 48 ≤ c.toNat := UInt32.le_iff_toNat_le.mp h.1
  have hhigh : c.toNat ≤ 57 := UInt32.le_iff_toNat_le.mp h.2
  exact ⟨by omega, by omega⟩

theorem isPlain_ofNat (n : Nat) : Text.IsPlain (ofNat n) := fun _ hc =>
  isPrintable_of_isDigit (isDigit_of_mem_ofNat hc)

theorem isPlain_padded (width n : Nat) : Text.IsPlain (padded width n) := by
  refine Text.IsPlain.append (fun c hc => ?_) (isPlain_ofNat n)
  rw [(List.mem_replicate.mp hc).2]
  decide

theorem encode_ofNat (n : Nat) : Utf8.encode (ofNat n) = bytes n :=
  Utf8.encode_eq_map (isPlain_ofNat n).lt

theorem asciiText_bytes (n : Nat) : asciiText (bytes n) = ofNat n :=
  asciiText_map (isPlain_ofNat n).lt

/-- A number reads back from its digits. -/
theorem value?_ofNat (n : Nat) : value? (ofNat n) = some n := by
  have hne : ofNat n ≠ [] := Nat.toDigits_ne_nil
  have hall : (ofNat n).all Char.isDigit = true :=
    List.all_eq_true.mpr fun c hc => isDigit_of_mem_ofNat hc
  rw [value?, if_pos ⟨hne, hall⟩]
  exact congrArg some Nat.ofDigitChars_ten_toDigits

/-- A number of three digits. -/
theorem length_bytes_eq_three {n : Nat} (hlow : 100 ≤ n) (hhigh : n ≤ 999) :
    (bytes n).length = 3 := by
  have hle : (Nat.toDigits 10 n).length ≤ 3 :=
    (Nat.length_toDigits_le_iff (by decide) (by decide)).mpr (by omega)
  have hgt : ¬ (Nat.toDigits 10 n).length ≤ 2 := fun h => by
    have := (Nat.length_toDigits_le_iff (b := 10) (by decide) (by decide)).mp h
    omega
  rw [bytes, List.length_map, ofNat]
  omega

end Decimal

/-! ## 4. White space -/

namespace Text

/-- Of the printable characters only the space is white. -/
theorem isBlank_of_isPrintable {c : Char} (h : IsPrintable c) (hne : c ≠ ' ') :
    isBlank c = false := by
  obtain ⟨hlow, hhigh⟩ := h
  have hspace : c.toNat ≠ 32 := fun heq => hne (by rw [← Char.ofNat_toNat c, heq])
  simp only [isBlank, Bool.or_eq_false_iff, Bool.and_eq_false_iff, decide_eq_false_iff_not,
    beq_eq_false_iff_ne]
  omega

theorem isBlank_of_isDigit {c : Char} (h : c.isDigit = true) : isBlank c = false := by
  refine isBlank_of_isPrintable (Decimal.isPrintable_of_isDigit h) ?_
  rintro rfl
  exact absurd h (by decide)

/-- A text that does not begin with white space. -/
def IsFlush (t : Text) : Prop := ∀ c ∈ t.head?, isBlank c = false

theorem isFlush_cons {c : Char} (h : isBlank c = false) (t : Text) : IsFlush (c :: t) :=
  fun _ hc => Option.some.inj hc ▸ h

theorem isFlush_of_isDigit {digits : Text} (hne : digits ≠ [])
    (h : ∀ c ∈ digits, c.isDigit = true) (rest : Text) : IsFlush (digits ++ rest) := by
  cases digits with
  | nil => exact absurd rfl hne
  | cons c digits => exact isFlush_cons (isBlank_of_isDigit (h c List.mem_cons_self)) _

theorem IsFlush.trimStart_eq {t : Text} (h : t.IsFlush) : trimStart t = t := by
  cases t with
  | nil => rfl
  | cons c t => exact List.dropWhile_cons_of_neg (by simp [h c rfl])

/-- A text without white space at its ends is left as it is. -/
theorem IsFlush.trim_eq {t : Text} (h : t.IsFlush) (hlast : IsFlush t.reverse) : trim t = t := by
  have hfirst : t.dropWhile isBlank = t := h.trimStart_eq
  have hback : t.reverse.dropWhile isBlank = t.reverse := hlast.trimStart_eq
  rw [trim, trimBoth, trimEnd, hfirst, hback, List.reverse_reverse]

end Text

/-! ## 5. Dates -/

namespace Calendar

theorem isPlain_yearText (y : Int) : Text.IsPlain (yearText y) := by
  refine Text.IsPlain.append ?_ (Decimal.isPlain_padded _ _)
  split
  · decide
  · split <;> decide

theorem isPlain_clockText (t : Instant) : Text.IsPlain t.clockText := by
  have hcolon : IsPrintable ':' := by decide
  exact ((Decimal.isPlain_padded _ _).append ((Decimal.isPlain_padded _ _).cons hcolon)).append
    ((Decimal.isPlain_padded _ _).cons hcolon)

theorem isPlain_httpDateText (t : Instant) : Text.IsPlain (httpDateText t) := by
  have hday : Text.IsPlain (weekdayName (weekday t.dayNumber)) := isPlain_getD (by decide) _
  have hmonth : Text.IsPlain (monthName t.date.month) := isPlain_getD (by decide) _
  have hspace : IsPrintable ' ' := by decide
  exact ((((((hday.append (by decide)).append (Decimal.isPlain_padded _ _)).append
    (hmonth.cons hspace)).append ((isPlain_yearText _).cons hspace)).append
      ((isPlain_clockText t).cons hspace)).append (by decide))

theorem isPlain_of_httpDate? {t : Instant} {date : Text} (h : httpDate? t = some date) :
    Text.IsPlain date := by
  unfold httpDate? at h
  split at h
  · exact Option.some.inj h ▸ isPlain_httpDateText t
  · cases h

end Calendar

end IsolatedSite
