/-
# Content lengths

A content length should be digits, with spaces and tabs around them at most (`SpellsLength`).  What
is accepted is more than that: digits with a plus sign in front, and with any of Unicode's white
space around them (`IsReadAsLength`).  `accepted_iff_lengths` says so for every head without a
transfer coding, and that the two rules part at nothing else: a head on which they disagree is one
that is accepted although a value in it is no length.
-/
import IsolatedSite.Proofs.Framing
import IsolatedSite.Proofs.HeadStability
import IsolatedSite.Proofs.Numerals
import IsolatedSite.Proofs.WellFormedOctets

namespace IsolatedSite.Http.Head

/-! ## 1. One value -/

/-- The characters that may stand around a length. -/
def isPadding (c : Char) : Bool := c == ' ' || c == '\t'

/-- A length as it should be: the digits of a number of 64 bits, with spaces and tabs around. -/
def SpellsLength (n : Nat) (value : Bytes) : Prop :=
  n < 2 ^ 64 ∧ ∃ t, value = Utf8.encode t ∧ Decimal.IsNumeral isPadding [[]] n t

/-- A length as it is read: a plus sign may stand in front, and all white space around both. -/
def IsReadAsLength (n : Nat) (value : Bytes) : Prop :=
  n < 2 ^ 64 ∧ ∃ t, value = Utf8.encode t ∧ Decimal.IsNumeral Text.isBlank [[], ['+']] n t

theorem contentLength?_eq_some_iff {value : Bytes} {n : Nat} :
    contentLength? value = some n ↔ IsReadAsLength n value := by
  rw [contentLength?, Option.bind_eq_some_iff]
  constructor
  · rintro ⟨t, ht, hn⟩
    obtain ⟨hnumeral, hlt⟩ := Decimal.unsigned?_trim_eq_some_iff.mp hn
    exact ⟨hlt, t, Utf8.decode?_eq_some_iff.mp ht, hnumeral⟩
  · rintro ⟨hlt, t, ht, hnumeral⟩
    exact ⟨t, Utf8.decode?_eq_some_iff.mpr ht,
      Decimal.unsigned?_trim_eq_some_iff.mpr ⟨hnumeral, hlt⟩⟩

theorem SpellsLength.isReadAsLength {n : Nat} {value : Bytes} (h : SpellsLength n value) :
    IsReadAsLength n value := by
  obtain ⟨hlt, t, ht, hnumeral⟩ := h
  refine ⟨hlt, t, ht, hnumeral.mono (fun c hc => ?_) (by simp)⟩
  simp only [isPadding, Bool.or_eq_true, beq_iff_eq] at hc
  rcases hc with rfl | rfl <;> decide

/-- A value is read as one number at most. -/
theorem IsReadAsLength.unique {n m : Nat} {value : Bytes} (hn : IsReadAsLength n value)
    (hm : IsReadAsLength m value) : n = m := by
  have h := contentLength?_eq_some_iff.mpr hn
  rw [contentLength?_eq_some_iff.mpr hm] at h
  exact (Option.some.inj h).symm

/-! ## 2. All values of a head -/

/-- The values of a head's content lengths, whatever the case of their names. -/
def lengthsOf (h : Head) : List Bytes := (h.fields.filter (isNamed "content-length")).map (·.2)

/-- Without transfer codings, and with a target that can be read, only the lengths matter. -/
theorem isAcceptable_iff_lengths {h : Head} (htarget : (Target.parse? h.target).isSome = true)
    (hcoding : ∀ f ∈ h.fields, isNamed "transfer-encoding" f = false) :
    h.isAcceptable = true ↔ ∃ n, ∀ v ∈ lengthsOf h, IsReadAsLength n v := by
  have hnone : h.fields.filter (isNamed "transfer-encoding") = [] :=
    List.filter_eq_nil_iff.mpr fun f hf => by simp [hcoding f hf]
  simp only [isAcceptable, htarget, hnone, List.all_nil, Bool.true_and, isOneLength_iff,
    contentLength?_eq_some_iff]
  rfl

/-- Where all values are read as one number, they spell one if each of them spells any. -/
theorem exists_spellsLength_iff {values : List Bytes} {n : Nat}
    (h : ∀ v ∈ values, IsReadAsLength n v) :
    (∃ n, ∀ v ∈ values, SpellsLength n v) ↔ ∀ v ∈ values, ∃ n, SpellsLength n v := by
  constructor
  · rintro ⟨m, hm⟩ v hv
    exact ⟨m, hm v hv⟩
  · intro hall
    refine ⟨n, fun v hv => ?_⟩
    obtain ⟨m, hm⟩ := hall v hv
    exact (h v hv).unique hm.isReadAsLength ▸ hm

/-- **Content lengths decide** on a head that can be scanned, has a target that can be read and no
transfer coding.  It is accepted exactly if there is one number below 2^64 that all of its content
lengths are read as, and is malformed, which is answered with 400, otherwise.  The lengths being
numbers as they should be comes to the same exactly if the head is not accepted although one of its
values, by a plus sign or by other white space than spaces and tabs, is none. -/
theorem accepted_iff_lengths {b rest : Bytes} {h : Head} (hscan : scan b = .done h rest)
    (htarget : (Target.parse? h.target).isSome = true)
    (hcoding : ∀ f ∈ h.fields, isNamed "transfer-encoding" f = false) :
    (verdict? b = some (.ok h) ↔ ∃ n, ∀ v ∈ lengthsOf h, IsReadAsLength n v) ∧
    (verdict? b ≠ some (.ok h) →
      ∃ why : Rejection, verdict? b = some (.error why) ∧ why.status = .badRequest) ∧
    ((verdict? b = some (.ok h) ↔ ∃ n, ∀ v ∈ lengthsOf h, SpellsLength n v) ↔
      (verdict? b = some (.ok h) → ∀ v ∈ lengthsOf h, ∃ n, SpellsLength n v)) := by
  have hverdict : verdict? b = some (if h.isAcceptable then .ok h else .error .malformed) := by
    simp only [verdict?, hscan]
  have haccepted : verdict? b = some (.ok h) ↔ ∃ n, ∀ v ∈ lengthsOf h, IsReadAsLength n v := by
    rw [← isAcceptable_iff_lengths htarget hcoding, hverdict]
    by_cases hacc : h.isAcceptable = true <;> simp [hacc]
  refine ⟨haccepted, fun hne => ⟨.malformed, ?_, rfl⟩, ?_, ?_⟩
  · by_cases hacc : h.isAcceptable = true
    · exact absurd (by rw [hverdict, if_pos hacc]) hne
    · rw [hverdict, if_neg hacc]
  · intro hsame hok
    obtain ⟨n, hn⟩ := haccepted.mp hok
    exact (exists_spellsLength_iff hn).mp (hsame.mp hok)
  · intro hplain
    constructor
    · intro hok
      obtain ⟨n, hn⟩ := haccepted.mp hok
      exact (exists_spellsLength_iff hn).mpr (hplain hok)
    · rintro ⟨n, hn⟩
      exact haccepted.mpr ⟨n, fun v hv => (hn v hv).isReadAsLength⟩

/-- A head with two content lengths, one of them with a zero in front. -/
def twoLengths : Bytes :=
  ascii "POST /a HTTP/1.1\r\nContent-Length: 7\r\nHost: a\r\nCONTENT-length:\t007 \r\n\r\n"

/-- Two ways to write one number do not contradict each other. -/
theorem accepted_iff_lengths_twoLengths :
    ∃ h, scan twoLengths = .done h [] ∧ (Target.parse? h.target).isSome = true ∧
      (∀ f ∈ h.fields, isNamed "transfer-encoding" f = false) ∧
      lengthsOf h = [ascii "7", ascii "007"] ∧ verdict? twoLengths = some (.ok h) := by
  have hscan : scan twoLengths = .done ⟨ascii "POST", ascii "/a", .http11,
      [(ascii "Content-Length", ascii "7"), (ascii "Host", ascii "a"),
        (ascii "CONTENT-length", ascii "007")]⟩ [] := by decide +kernel
  have htarget : (Target.parse? (ascii "/a")).isSome = true := by decide +kernel
  have hvalues : ∀ v ∈ [ascii "7", ascii "007"], contentLength? v = some 7 := by decide +kernel
  refine ⟨_, hscan, htarget, by decide +kernel, by decide +kernel, ?_⟩
  exact (accepted_iff_lengths hscan htarget (by decide +kernel)).1.mpr
    ⟨7, fun v hv => contentLength?_eq_some_iff.mp (hvalues v hv)⟩

/-- What spells a length holds digits, spaces and tabs only. -/
theorem SpellsLength.isDigit_or_isPadding {n : Nat} {t : Text}
    (h : SpellsLength n (Utf8.encode t)) : ∀ c ∈ t, c.isDigit = true ∨ isPadding c = true := by
  obtain ⟨-, t', ht, front, core, back, rfl, ⟨sign, digits, rfl, hsign, -, hdigits, -⟩, hfront,
    hback⟩ := h
  obtain rfl : t = _ := Utf8.encode_injective ht
  obtain rfl : sign = [] := by simpa using hsign
  intro c hc
  simp only [List.nil_append, List.mem_append] at hc
  rcases hc with (hc | hc) | hc
  · exact Or.inr (hfront c hc)
  · exact Or.inl (hdigits c hc)
  · exact Or.inr (hback c hc)

/-- **Not only lengths are accepted**: a plus sign is let through. -/
theorem not_forall_spellsLength :
    ¬ ∀ (b rest : Bytes) (h : Head), scan b = .done h rest →
      (Target.parse? h.target).isSome = true →
      (∀ f ∈ h.fields, isNamed "transfer-encoding" f = false) →
      (verdict? b = some (.ok h) ↔ ∃ n, ∀ v ∈ lengthsOf h, SpellsLength n v) := by
  intro hall
  have hscan : scan (ascii "GET / HTTP/1.1\r\nContent-Length: +5\r\n\r\n") =
      .done ⟨ascii "GET", ascii "/", .http11, [(ascii "Content-Length", ascii "+5")]⟩ [] := by
    decide +kernel
  have hok : verdict? (ascii "GET / HTTP/1.1\r\nContent-Length: +5\r\n\r\n") =
      some (.ok ⟨ascii "GET", ascii "/", .http11, [(ascii "Content-Length", ascii "+5")]⟩) := by
    decide +kernel
  obtain ⟨n, hn⟩ := (hall _ _ _ hscan (by decide +kernel) (by decide +kernel)).mp hok
  have hplus : SpellsLength n (Utf8.encode ['+', '5']) := hn _ (by decide +kernel)
  exact absurd (hplus.isDigit_or_isPadding '+' List.mem_cons_self) (by decide)

end IsolatedSite.Http.Head
