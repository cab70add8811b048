/-
# JSON texts

The grammar of JSON as a relation between values and texts (`Json.Spells`): blanks may stand
around every token, numbers have a fraction and an exponent or not, and strings escape what they
must and may escape the rest.  Numbers are exact, whatever their size.

A writer uses little of this freedom.  What it writes for a text, a whole number or nothing spells
that value and, in front of anything that may stand behind a value, no other one (`SpellsOnly`).
So an object that is put together from such values spells itself alone (`spells_object_iff`).
-/
import IsolatedSite.Proofs.Cutting
import IsolatedSite.Proofs.Numerals
import IsolatedSite.Text.Hex
import Mathlib.Algebra.Field.Rat
import Mathlib.Data.List.Forall2

namespace IsolatedSite.Json

/-! ## 1. Values -/

/-- What a JSON text says. -/
inductive Value where
  | null
  | bool (b : Bool)
  | number (x : Rat)
  | text (t : Text)
  | list (items : List Value)
  | object (members : List (Text × Value))

/-! ## 2. Numbers -/

/-- Digits, at least one. -/
def IsDigits (t : Text) : Prop := t ≠ [] ∧ ∀ c ∈ t, c.isDigit = true

/-- An exponent: its mark, its sign if it has one, and its digits. -/
structure Exponent where
  mark : Char
  sign : Text
  digits : Text

/-- A number in its parts. -/
structure Numeral where
  isNegative : Bool
  whole : Text
  fraction : Option Text
  exponent : Option Exponent

/-- The parts are as they have to be; a whole part of several digits does not begin with 0. -/
structure Numeral.IsProper (n : Numeral) : Prop where
  whole : IsDigits n.whole
  noZero : 1 < n.whole.length → n.whole.head? ≠ some '0'
  fraction : ∀ digits, n.fraction = some digits → IsDigits digits
  exponent : ∀ e, n.exponent = some e →
    e.mark ∈ ['e', 'E'] ∧ e.sign ∈ [[], ['+'], ['-']] ∧ IsDigits e.digits

namespace Numeral

/-- What stands behind the whole part. -/
def behindWhole (n : Numeral) : Text :=
  (match n.fraction with
    | some digits => '.' :: digits
    | none => []) ++
  (match n.exponent with
    | some e => e.mark :: e.sign ++ e.digits
    | none => [])

/-- A number as it is written. -/
def text (n : Numeral) : Text := (if n.isNegative then ['-'] else []) ++ n.whole ++ n.behindWhole

/-- The power of ten of the exponent. -/
def power (n : Numeral) : Int :=
  match n.exponent with
  | some e =>
    if e.sign = ['-'] then -(Nat.ofDigitChars 10 e.digits 0 : Int)
    else (Nat.ofDigitChars 10 e.digits 0 : Int)
  | none => 0

/-- The number that is written. -/
def value (n : Numeral) : Rat :=
  let fraction := n.fraction.getD []
  let size : Rat := (Nat.ofDigitChars 10 (n.whole ++ fraction) 0 : Rat)
  (if n.isNegative then -size else size) * (10 : Rat) ^ (n.power - (fraction.length : Int))

end Numeral

/-! ## 3. Strings -/

/-- The letters of the short escapes, and what they stand for. -/
def shortEscapes : List (Char × Char) :=
  [('"', '"'), ('\\', '\\'), ('/', '/'), ('b', '\x08'), ('f', '\x0c'), ('n', '\n'), ('r', '\r'),
   ('t', '\t')]

/-- Four hexadecimal digits and their number. -/
def IsCode (n : Nat) (digits : Text) : Prop := Hex.take? 4 digits = some (n, [])

/-- What may stand for a character inside a string. -/
inductive SpellsChar : Char → Text → Prop
  /-- The character itself, if it is neither a control character nor one of two others. -/
  | itself {c : Char} (hlow : 32 ≤ c.toNat) (hquote : c ≠ '"') (hback : c ≠ '\\') :
      SpellsChar c [c]
  | short {letter c : Char} (h : (letter, c) ∈ shortEscapes) : SpellsChar c ['\\', letter]
  /-- The number of the character. -/
  | coded {n : Nat} {digits : Text} (h : IsCode n digits) (hn : n < 0xD800 ∨ 0xE000 ≤ n) :
      SpellsChar (Char.ofNat n) ('\\' :: 'u' :: digits)
  /-- Two halves of the number of a character that does not fit into four digits. -/
  | paired {m n : Nat} {digits digits' : Text} (h : IsCode m digits) (h' : IsCode n digits')
      (hm : 0xD800 ≤ m ∧ m < 0xDC00) (hn : 0xDC00 ≤ n ∧ n < 0xE000) :
      SpellsChar (Char.ofNat (0x10000 + (m - 0xD800) * 0x400 + (n - 0xDC00)))
        ('\\' :: 'u' :: digits ++ '\\' :: 'u' :: digits')

/-- What may stand for the characters of a text, one after the other. -/
inductive SpellsChars : Text → Text → Prop
  | nil : SpellsChars [] []
  | cons {c : Char} {s t u : Text} (h : SpellsChar c t) (hs : SpellsChars s u) :
      SpellsChars (c :: s) (t ++ u)

/-- Quotation marks around a text. -/
def inQuotes (t : Text) : Text := '"' :: t ++ ['"']

/-! ## 4. Texts -/

/-- The characters that may stand between two tokens. -/
def blanks : List Char := [' ', '\t', '\n', '\r']

/-- A text of blanks. -/
def IsBlank (t : Text) : Prop := ∀ c ∈ t, c ∈ blanks

/-- A text with blanks around it. -/
def Padded (t u : Text) : Prop :=
  ∃ front back, IsBlank front ∧ IsBlank back ∧ u = front ++ t ++ back

mutual

/-- A text spells a value. -/
inductive Spells : Value → Text → Prop
  | null : Spells .null "null".toList
  | true : Spells (.bool true) "true".toList
  | false : Spells (.bool false) "false".toList
  | number {n : Numeral} (h : n.IsProper) : Spells (.number n.value) n.text
  | text {s t : Text} (h : SpellsChars s t) : Spells (.text s) (inQuotes t)
  | emptyList {t : Text} (h : IsBlank t) : Spells (.list []) ('[' :: t ++ [']'])
  | list {items : List Value} {t : Text} (h : SpellsItems items t) :
      Spells (.list items) ('[' :: t ++ [']'])
  | emptyObject {t : Text} (h : IsBlank t) : Spells (.object []) ('\x7b' :: t ++ ['\x7d'])
  | object {members : List (Text × Value)} {t : Text} (h : SpellsMembers members t) :
      Spells (.object members) ('\x7b' :: t ++ ['\x7d'])

/-- A text spells the items of a list. -/
inductive SpellsItems : List Value → Text → Prop
  | last {v : Value} {t u : Text} (h : Spells v t) (hu : Padded t u) : SpellsItems [v] u
  | more {v : Value} {t u : Text} {items : List Value} {rest : Text} (h : Spells v t)
      (hu : Padded t u) (hrest : SpellsItems items rest) :
      SpellsItems (v :: items) (u ++ ',' :: rest)

/-- A text spells the members of an object. -/
inductive SpellsMembers : List (Text × Value) → Text → Prop
  | last {name n u : Text} {v : Value} {t w : Text} (hname : SpellsChars name n)
      (hu : Padded (inQuotes n) u) (h : Spells v t) (hw : Padded t w) :
      SpellsMembers [(name, v)] (u ++ ':' :: w)
  | more {name n u : Text} {v : Value} {t w : Text} {members : List (Text × Value)} {rest : Text}
      (hname : SpellsChars name n) (hu : Padded (inQuotes n) u) (h : Spells v t) (hw : Padded t w)
      (hrest : SpellsMembers members rest) :
      SpellsMembers ((name, v) :: members) (u ++ ':' :: (w ++ ',' :: rest))

end

/-- A value with blanks around it, and nothing else. -/
def IsTextOf (v : Value) (t : Text) : Prop := ∃ u, Spells v u ∧ Padded u t

/-! ## 5. Where values begin and end -/

/-- A text that may stand behind a value: it is empty or begins with a blank or with a mark that
ends or separates values. -/
def EndsValue (t : Text) : Prop := ∀ c ∈ t.head?, c ∈ blanks ++ [',', ']', '\x7d']

theorem endsValue_nil : EndsValue [] := fun _ hc => by cases hc

theorem endsValue_comma (t : Text) : EndsValue (',' :: t) := by
  rintro c ⟨⟩
  decide

theorem IsBlank.endsValue {t rest : Text} (h : IsBlank t) (hrest : EndsValue rest) :
    EndsValue (t ++ rest) := by
  cases t with
  | nil => exact hrest
  | cons c t =>
    rintro d ⟨⟩
    exact List.mem_append_left _ (h c List.mem_cons_self)

/-- Blanks are followed by something that is no blank only if there are none of them. -/
theorem IsBlank.eq_nil {front rest t : Text} {c : Char} (h : IsBlank front) (hc : c ∉ blanks)
    (heq : front ++ rest = c :: t) : front = [] := by
  cases front with
  | nil => rfl
  | cons d front =>
    obtain ⟨rfl, -⟩ := List.cons.inj heq
    exact absurd (h d List.mem_cons_self) hc

/-- What a value may begin with. -/
def Value.BeginsWith : Value → Char → Prop
  | .null, c => c = 'n'
  | .bool true, c => c = 't'
  | .bool false, c => c = 'f'
  | .number _, c => c = '-' ∨ c.isDigit = true
  | .text _, c => c = '"'
  | .list _, c => c = '['
  | .object _, c => c = '\x7b'

/-- **The first character of a value** tells what kind of value it is. -/
theorem Spells.exists_cons {v : Value} {t : Text} (h : Spells v t) :
    ∃ c u, t = c :: u ∧ v.BeginsWith c := by
  cases h with
  | @number n h =>
    obtain ⟨c, t, hwhole⟩ := List.exists_cons_of_ne_nil h.whole.1
    rw [Numeral.text]
    cases n.isNegative with
    | true => exact ⟨'-', _, rfl, .inl rfl⟩
    | false =>
      rw [hwhole]
      exact ⟨c, _, rfl, .inr (h.whole.2 c (by simp [hwhole]))⟩
  | null => exact ⟨_, _, rfl, rfl⟩
  | true => exact ⟨_, _, rfl, rfl⟩
  | false => exact ⟨_, _, rfl, rfl⟩
  | text h => exact ⟨_, _, rfl, rfl⟩
  | emptyList h => exact ⟨_, _, rfl, rfl⟩
  | list h => exact ⟨_, _, rfl, rfl⟩
  | emptyObject h => exact ⟨_, _, rfl, rfl⟩
  | object h => exact ⟨_, _, rfl, rfl⟩

theorem Spells.beginsWith {v : Value} {t rest u : Text} {c : Char} (h : Spells v t)
    (heq : t ++ rest = c :: u) : v.BeginsWith c := by
  obtain ⟨d, t', rfl, hd⟩ := h.exists_cons
  obtain ⟨rfl, -⟩ := List.cons.inj heq
  exact hd

theorem Value.BeginsWith.not_mem_blanks {v : Value} {c : Char} (h : v.BeginsWith c) :
    c ∉ blanks := by
  intro hc
  simp only [blanks, List.mem_cons, List.not_mem_nil, or_false] at hc
  rcases hc with rfl | rfl | rfl | rfl <;> unfold BeginsWith at h <;> split at h <;> simp_all

/-- Nothing else begins like nothing. -/
theorem Value.BeginsWith.eq_null {v : Value} (h : v.BeginsWith 'n') : v = .null := by
  unfold BeginsWith at h
  split at h <;> simp_all

/-- Nothing but a text begins with a quotation mark. -/
theorem Value.BeginsWith.exists_text {v : Value} (h : v.BeginsWith '"') : ∃ t, v = .text t := by
  unfold BeginsWith at h
  split at h <;> simp_all

/-- Nothing but an object begins with a brace. -/
theorem Value.BeginsWith.exists_object {v : Value} (h : v.BeginsWith '\x7b') :
    ∃ members, v = .object members := by
  unfold BeginsWith at h
  split at h <;> simp_all

/-- Nothing but a number begins with a digit. -/
theorem Value.BeginsWith.exists_number {v : Value} {c : Char} (h : v.BeginsWith c)
    (hc : c.isDigit = true) : ∃ x, v = .number x := by
  unfold BeginsWith at h
  split at h
  case h_4 => exact ⟨_, rfl⟩
  all_goals
    rw [h] at hc
    exact absurd hc (by decide)

/-- A text spells a value and, in front of anything that may stand behind a value, no other. -/
structure SpellsOnly (v : Value) (t : Text) : Prop where
  spells : Spells v t
  only : ∀ {w : Value} {u rest rest' : Text}, Spells w u → EndsValue rest → EndsValue rest' →
    u ++ rest = t ++ rest' → w = v ∧ rest = rest'

/-! ## 6. Nothing and whole numbers -/

theorem spellsOnly_null : SpellsOnly .null "null".toList where
  spells := .null
  only := by
    intro w u rest rest' h _ _ heq
    have hbegins : w.BeginsWith 'n' := h.beginsWith heq
    obtain rfl := hbegins.eq_null
    cases h
    exact ⟨rfl, List.append_cancel_left heq⟩

theorem EndsValue.isDigit_eq {t : Text} (h : EndsValue t) :
    ∀ c ∈ t.head?, c.isDigit = false := by
  intro c hc
  have hall : ((blanks ++ [',', ']', '\x7d']).all fun c => !c.isDigit) = true := by decide
  simpa using List.all_eq_true.mp hall c (h c hc)

/-- Behind a whole part stands a point or the mark of an exponent, if anything. -/
theorem Numeral.IsProper.head_behindWhole {n : Numeral} (h : n.IsProper) {c : Char} {t : Text}
    (hbehind : n.behindWhole = c :: t) : c ∈ ['.', 'e', 'E'] := by
  rw [Numeral.behindWhole] at hbehind
  cases hfraction : n.fraction with
  | some digits =>
    simp only [hfraction, List.cons_append] at hbehind
    obtain ⟨rfl, -⟩ := List.cons.inj hbehind
    decide
  | none =>
    cases hexponent : n.exponent with
    | none => simp [hfraction, hexponent] at hbehind
    | some e =>
      simp only [hfraction, hexponent, List.nil_append, List.cons_append] at hbehind
      obtain ⟨rfl, -⟩ := List.cons.inj hbehind
      exact List.mem_cons_of_mem _ (h.exponent e hexponent).1

theorem Numeral.behindWhole_eq_nil_iff {n : Numeral} :
    n.behindWhole = [] ↔ n.fraction = none ∧ n.exponent = none := by
  rw [behindWhole, List.append_eq_nil_iff]
  cases n.fraction <;> cases n.exponent <;> simp

/-- Plain digits are the number that they denote. -/
theorem Numeral.value_of_plain {n : Numeral} (hnegative : n.isNegative = false)
    (hfraction : n.fraction = none) (hexponent : n.exponent = none) :
    n.value = (Nat.ofDigitChars 10 n.whole 0 : Rat) := by
  simp [value, power, hnegative, hfraction, hexponent]

/-- **Plain digits** spell the number that they denote, and no other: no sign is a digit, nor does
a fraction or an exponent begin with anything that may stand behind a value. -/
theorem spellsOnly_digits {digits : Text} (hdigits : IsDigits digits)
    (hzero : 1 < digits.length → digits.head? ≠ some '0') :
    SpellsOnly (.number (Nat.ofDigitChars 10 digits 0 : Rat)) digits where
  spells := by
    have hproper : Numeral.IsProper ⟨false, digits, none, none⟩ :=
      ⟨hdigits, hzero, by simp, by simp⟩
    have hspells := Spells.number hproper
    have hvalue : Numeral.value ⟨false, digits, none, none⟩ =
        (Nat.ofDigitChars 10 digits 0 : Rat) := Numeral.value_of_plain rfl rfl rfl
    have htext : Numeral.text ⟨false, digits, none, none⟩ = digits := by
      simp [Numeral.text, Numeral.behindWhole]
    rwa [hvalue, htext] at hspells
  only := by
    intro w u rest rest' h hrest hrest' heq
    obtain ⟨d, ds, rfl⟩ := List.exists_cons_of_ne_nil hdigits.1
    have hd : d.isDigit = true := hdigits.2 d List.mem_cons_self
    obtain ⟨x, rfl⟩ := (h.beginsWith heq).exists_number hd
    obtain ⟨n, hn, rfl, rfl⟩ : ∃ n : Numeral, n.IsProper ∧ n.value = x ∧ n.text = u := by
      cases h with
      | number hn => exact ⟨_, hn, rfl, rfl⟩
    have hnegative : n.isNegative = false := by
      by_contra hne
      rw [Numeral.text, Bool.eq_true_of_not_eq_false hne] at heq
      obtain ⟨rfl, -⟩ := List.cons.inj heq
      exact absurd hd (by decide)
    have hsplit : n.whole ++ (n.behindWhole ++ rest) = (d :: ds) ++ rest' := by
      simpa [Numeral.text, hnegative] using heq
    have hbehind : ∀ c ∈ (n.behindWhole ++ rest).head?, c.isDigit = false := by
      intro c hc
      cases hn' : n.behindWhole with
      | nil =>
        rw [hn', List.nil_append] at hc
        exact hrest.isDigit_eq c hc
      | cons y t =>
        rw [hn'] at hc
        cases hc
        have hall : (['.', 'e', 'E'].all fun c => !c.isDigit) = true := by decide
        simpa using List.all_eq_true.mp hall _ (hn.head_behindWhole hn')
    obtain ⟨hwhole, hafter⟩ := run_append_inj hn.whole.2 hdigits.2 hbehind
      hrest'.isDigit_eq hsplit
    have hnothing : n.behindWhole = [] := by
      by_contra hne
      obtain ⟨c, t, hn'⟩ := List.exists_cons_of_ne_nil hne
      have hall : (['.', 'e', 'E'].all fun c => !(blanks ++ [',', ']', '\x7d']).contains c) =
          true := by decide
      have hend : c ∈ blanks ++ [',', ']', '\x7d'] := by
        refine hrest' c ?_
        rw [← hafter, hn']
        rfl
      have hnot := List.all_eq_true.mp hall c (hn.head_behindWhole hn')
      rw [List.contains_iff_mem.mpr hend] at hnot
      cases hnot
    obtain ⟨hfraction, hexponent⟩ := Numeral.behindWhole_eq_nil_iff.mp hnothing
    rw [Numeral.value_of_plain hnegative hfraction hexponent, hwhole]
    exact ⟨rfl, by simpa [hnothing] using hafter⟩

/-- **A whole number** in decimal. -/
theorem spellsOnly_ofNat (n : Nat) : SpellsOnly (.number n) (Decimal.ofNat n) := by
  have hdigits : IsDigits (Decimal.ofNat n) :=
    ⟨Nat.toDigits_ne_nil, fun _ => Decimal.isDigit_of_mem_ofNat⟩
  have hzero : 1 < (Decimal.ofNat n).length → (Decimal.ofNat n).head? ≠ some '0' := by
    intro hlength
    refine Decimal.head?_ofNat_ne ?_
    rintro rfl
    exact absurd hlength (by decide)
  have honly := spellsOnly_digits hdigits hzero
  have hvalue : Nat.ofDigitChars 10 (Decimal.ofNat n) 0 = n := Nat.ofDigitChars_ten_toDigits
  rwa [hvalue] at honly

/-! ## 7. Strings -/

theorem SpellsChar.exists_cons {c : Char} {t : Text} (h : SpellsChar c t) :
    ∃ d u, t = d :: u ∧ d ≠ '"' := by
  cases h with
  | itself _ hquote _ => exact ⟨_, _, rfl, hquote⟩
  | short _ => exact ⟨_, _, rfl, by decide⟩
  | coded _ _ => exact ⟨_, _, rfl, by decide⟩
  | paired _ _ _ _ => exact ⟨_, _, rfl, by decide⟩

theorem IsCode.length_eq {n : Nat} {digits : Text} (h : IsCode n digits) : digits.length = 4 := by
  simp only [IsCode, Hex.take?] at h
  split at h
  · rename_i hfour
    obtain ⟨-, hrest⟩ := Prod.mk.inj (Option.some.inj h)
    rw [← hfour.1, List.take_of_length_le (List.drop_eq_nil_iff.mp hrest)]
  · cases h

/-- The codes at the beginning of one text are the same. -/
theorem IsCode.unique {m n : Nat} {s t rest rest' : Text} (hs : IsCode m s) (ht : IsCode n t)
    (heq : s ++ rest = t ++ rest') : m = n ∧ rest = rest' := by
  obtain ⟨rfl, hrest⟩ := List.append_inj heq (hs.length_eq.trans ht.length_eq.symm)
  exact ⟨(Prod.mk.inj (Option.some.inj (hs.symm.trans ht))).1, hrest⟩

/-- No short escape is taken for a code, and each letter has one meaning. -/
theorem eq_of_mem_shortEscapes {letter c d : Char} (hc : (letter, c) ∈ shortEscapes)
    (hd : (letter, d) ∈ shortEscapes) : c = d := by
  have hall : ∀ p ∈ shortEscapes, ∀ q ∈ shortEscapes, p.1 = q.1 → p.2 = q.2 := by decide
  exact hall _ hc _ hd rfl

theorem ne_u_of_mem_shortEscapes {letter c : Char} (hc : (letter, c) ∈ shortEscapes) :
    letter ≠ 'u' := by
  have hall : ∀ p ∈ shortEscapes, p.1 ≠ 'u' := by decide
  exact hall _ hc

/-- **What stands for a character** inside a string is read in one way. -/
theorem SpellsChar.unique {c d : Char} {s t rest rest' : Text} (hs : SpellsChar c s)
    (ht : SpellsChar d t) (heq : s ++ rest = t ++ rest') : c = d ∧ rest = rest' := by
  cases hs with
  | itself _ _ hback =>
    cases ht with
    | itself _ _ _ => simpa using heq
    | short _ => exact absurd (List.cons.inj heq).1 hback
    | coded _ _ => exact absurd (List.cons.inj heq).1 hback
    | paired _ _ _ _ => exact absurd (List.cons.inj heq).1 hback
  | short hletter =>
    cases ht with
    | itself _ _ hback => exact absurd (List.cons.inj heq).1.symm hback
    | short hletter' =>
      simp only [List.cons_append, List.nil_append, List.cons.injEq, true_and] at heq
      obtain ⟨rfl, hrest⟩ := heq
      exact ⟨eq_of_mem_shortEscapes hletter hletter', hrest⟩
    | coded _ _ =>
      simp only [List.cons_append, List.nil_append, List.cons.injEq, true_and] at heq
      exact absurd heq.1 (ne_u_of_mem_shortEscapes hletter)
    | paired _ _ _ _ =>
      simp only [List.cons_append, List.nil_append, List.cons.injEq, true_and] at heq
      exact absurd heq.1 (ne_u_of_mem_shortEscapes hletter)
  | coded hcode hn =>
    cases ht with
    | itself _ _ hback => exact absurd (List.cons.inj heq).1.symm hback
    | short hletter =>
      simp only [List.cons_append, List.nil_append, List.cons.injEq, true_and] at heq
      exact absurd heq.1.symm (ne_u_of_mem_shortEscapes hletter)
    | coded hcode' _ =>
      simp only [List.cons_append, List.cons.injEq, true_and] at heq
      obtain ⟨rfl, hrest⟩ := hcode.unique hcode' heq
      exact ⟨rfl, hrest⟩
    | paired hcode' _ hm _ =>
      simp only [List.cons_append, List.append_assoc, List.cons.injEq, true_and] at heq
      obtain ⟨rfl, -⟩ := hcode.unique hcode' heq
      omega
  | paired hcode hcode' hm _ =>
    cases ht with
    | itself _ _ hback => exact absurd (List.cons.inj heq).1.symm hback
    | short hletter =>
      simp only [List.cons_append, List.nil_append, List.cons.injEq, true_and] at heq
      exact absurd heq.1.symm (ne_u_of_mem_shortEscapes hletter)
    | coded hcode'' hn =>
      simp only [List.cons_append, List.append_assoc, List.cons.injEq, true_and] at heq
      obtain ⟨rfl, -⟩ := hcode.unique hcode'' heq
      omega
    | paired hother hother' _ _ =>
      simp only [List.cons_append, List.append_assoc, List.cons.injEq, true_and] at heq
      obtain ⟨rfl, heq⟩ := hcode.unique hother heq
      simp only [List.cons.injEq, true_and] at heq
      obtain ⟨rfl, hrest⟩ := hcode'.unique hother' heq
      exact ⟨rfl, hrest⟩

/-- **What stands inside a string** is read in one way.  The induction is on the characters. -/
theorem SpellsChars.unique {s s' t t' rest rest' : Text} (h : SpellsChars s t)
    (h' : SpellsChars s' t') (heq : t ++ '"' :: rest = t' ++ '"' :: rest') :
    s = s' ∧ rest = rest' := by
  induction h generalizing s' t' with
  | nil =>
    cases h' with
    | nil => simpa using heq
    | cons hc _ =>
      obtain ⟨d, u, rfl, hne⟩ := hc.exists_cons
      exact absurd (List.cons.inj heq).1.symm hne
  | cons hc hs ih =>
    cases h' with
    | nil =>
      obtain ⟨d, u, rfl, hne⟩ := hc.exists_cons
      exact absurd (List.cons.inj heq).1 hne
    | cons hc' hs' =>
      rw [List.append_assoc, List.append_assoc] at heq
      obtain ⟨rfl, heq⟩ := hc.unique hc' heq
      obtain ⟨rfl, hrest⟩ := ih hs' heq
      exact ⟨rfl, hrest⟩

/-- **A string** spells its text and no other value. -/
theorem spellsOnly_text {s t : Text} (h : SpellsChars s t) :
    SpellsOnly (.text s) (inQuotes t) where
  spells := .text h
  only := by
    intro w u rest rest' hw _ _ heq
    have hbegins : w.BeginsWith '"' := hw.beginsWith heq
    obtain ⟨s', rfl⟩ := hbegins.exists_text
    cases hw with
    | text h' =>
      simp only [inQuotes, List.cons_append, List.append_assoc, List.nil_append, List.cons.injEq,
        true_and] at heq
      obtain ⟨rfl, hrest⟩ := h'.unique h heq
      exact ⟨rfl, hrest⟩

/-! ## 8. Objects -/

/-- A member as it is written: its name and the text of its value, without blanks. -/
def memberText (m : Text × Text) : Text := inQuotes m.1 ++ ':' :: m.2

/-- A written member and what it means. -/
structure Means (m : Text × Text) (v : Text × Value) : Prop where
  name : SpellsChars v.1 m.1
  value : SpellsOnly v.2 m.2

theorem padded_self (t : Text) : Padded t t := by
  have hnone : IsBlank [] := fun _ hc => by cases hc
  exact ⟨[], [], hnone, hnone, (List.append_nil t).symm⟩

/-- What a text says first is a member, and `rest` stands behind it. -/
def SpellsFirst (x : Text × Value) (t rest : Text) : Prop :=
  ∃ n u inner w, SpellsChars x.1 n ∧ Padded (inQuotes n) u ∧ Spells x.2 inner ∧ Padded inner w ∧
    t = u ++ ':' :: (w ++ rest)

/-- Behind the first member stands nothing, or a comma and further members. -/
theorem SpellsMembers.exists_first {xs : List (Text × Value)} {t : Text} (h : SpellsMembers xs t) :
    ∃ x ys rest, xs = x :: ys ∧ SpellsFirst x t rest ∧ EndsValue rest ∧
      (rest = [] ∧ ys = [] ∨ ∃ more, rest = ',' :: more ∧ SpellsMembers ys more) := by
  cases h with
  | last hname hu h hw =>
    exact ⟨_, [], [], rfl, ⟨_, _, _, _, hname, hu, h, hw, by simp⟩, endsValue_nil, .inl ⟨rfl, rfl⟩⟩
  | @more _ _ _ _ _ _ _ rest hname hu h hw hrest =>
    exact ⟨_, _, _, rfl, ⟨_, _, _, _, hname, hu, h, hw, rfl⟩, endsValue_comma rest,
      .inr ⟨rest, rfl, hrest⟩⟩

/-- **A written member** is what is said first, in front of anything that may stand behind a value,
and nothing but blanks may belong to it beyond what was written. -/
theorem Means.unique {m : Text × Text} {v x : Text × Value} (h : Means m v) {rest rest' : Text}
    (hfirst : SpellsFirst x (memberText m ++ rest') rest) (hrest : EndsValue rest)
    (hrest' : EndsValue rest') : x = v ∧ ∃ back, IsBlank back ∧ back ++ rest = rest' := by
  obtain ⟨n, -, inner, -, hname, ⟨a, b, ha, hb, rfl⟩, hinner, ⟨c, d, hc, hd, rfl⟩, heq⟩ := hfirst
  simp only [memberText, inQuotes, List.append_assoc, List.cons_append, List.nil_append] at heq
  obtain rfl := ha.eq_nil (by decide) heq.symm
  obtain ⟨hnames, heq⟩ := h.name.unique hname (List.cons.inj heq).2
  obtain rfl := hb.eq_nil (by decide) heq.symm
  have hvalue : c ++ (inner ++ (d ++ rest)) = m.2 ++ rest' := (List.cons.inj heq).2.symm
  obtain ⟨y, ys, hy, hbegins⟩ := h.value.spells.exists_cons
  rw [hy] at hvalue
  obtain rfl := hc.eq_nil hbegins.not_mem_blanks hvalue
  rw [← hy] at hvalue
  obtain ⟨hvalues, hback⟩ := h.value.only hinner (hd.endsValue hrest) hrest' hvalue
  exact ⟨Prod.ext hnames.symm hvalues, d, hd, hback⟩

theorem spells_memberText {m : Text × Text} {v : Text × Value} (h : Means m v) :
    SpellsMembers [v] (memberText m) :=
  .last h.name (padded_self _) h.value.spells (padded_self _)

theorem spells_memberText_comma {m : Text × Text} {v : Text × Value} (h : Means m v)
    {vs : List (Text × Value)} {rest : Text} (hrest : SpellsMembers vs rest) :
    SpellsMembers (v :: vs) (memberText m ++ ',' :: rest) := by
  have hall := SpellsMembers.more h.name (padded_self _) h.value.spells (padded_self _) hrest
  rw [memberText, List.append_assoc, List.cons_append]
  exact hall

/-- **Members**, one after the other, are read in one way.  The induction is on what was
written. -/
theorem spellsMembers_iff {m : Text × Text} {ms : List (Text × Text)} {v : Text × Value}
    {vs : List (Text × Value)} (h : List.Forall₂ Means (m :: ms) (v :: vs))
    {xs : List (Text × Value)} :
    SpellsMembers xs (joinWith [','] ((m :: ms).map memberText)) ↔ xs = v :: vs := by
  induction ms generalizing m v vs xs with
  | nil =>
    obtain ⟨hm, hms⟩ := List.forall₂_cons.mp h
    cases hms
    constructor
    · intro hxs
      rw [List.map_singleton, joinWith, ← List.append_nil (memberText m)] at hxs
      obtain ⟨x, ys, rest, rfl, hfirst, hends, hmore⟩ := hxs.exists_first
      obtain ⟨rfl, back, -, hback⟩ := hm.unique hfirst hends endsValue_nil
      obtain ⟨-, rfl⟩ := List.append_eq_nil_iff.mp hback
      rcases hmore with ⟨-, rfl⟩ | ⟨more, hcomma, -⟩
      · rfl
      · cases hcomma
    · rintro rfl
      exact spells_memberText hm
  | cons m' ms ih =>
    obtain ⟨hm, hms⟩ := List.forall₂_cons.mp h
    cases hms with
    | @cons _ v' _ vs hm' hms =>
      have ih : ∀ {xs}, SpellsMembers xs (joinWith [','] ((m' :: ms).map memberText)) ↔
          xs = v' :: vs := ih (.cons hm' hms)
      have hjoin : joinWith [','] ((m :: m' :: ms).map memberText) =
          memberText m ++ ',' :: joinWith [','] ((m' :: ms).map memberText) := by
        simp [joinWith]
      rw [hjoin]
      constructor
      · intro hxs
        obtain ⟨x, ys, rest, rfl, hfirst, hends, hmore⟩ := hxs.exists_first
        obtain ⟨rfl, back, hblank, hback⟩ := hm.unique hfirst hends (endsValue_comma _)
        obtain rfl := hblank.eq_nil (by decide) hback
        rcases hmore with ⟨rfl, -⟩ | ⟨more, rfl, hmore⟩
        · cases hback
        · rw [List.nil_append] at hback
          rw [(List.cons.inj hback).2] at hmore
          rw [ih.mp hmore]
      · rintro rfl
        exact spells_memberText_comma hm (ih.mpr rfl)

/-- No blanks stand behind what ends in something that is no blank. -/
theorem IsBlank.eq_nil_of_concat {t u back : Text} {c : Char} (h : IsBlank back) (hc : c ∉ blanks)
    (heq : t ++ back = u ++ [c]) : back = [] := by
  rcases List.eq_nil_or_concat' back with rfl | ⟨front, d, rfl⟩
  · rfl
  · rw [← List.append_assoc] at heq
    obtain ⟨-, hlast⟩ := List.append_inj' heq rfl
    obtain rfl := List.singleton_inj.mp hlast
    exact absurd (h d (by simp)) hc

/-- **An object** that is written without blanks is a text of itself and of nothing else. -/
theorem isTextOf_object_iff {m : Text × Text} {ms : List (Text × Text)} {v : Text × Value}
    {vs : List (Text × Value)} (h : List.Forall₂ Means (m :: ms) (v :: vs)) {x : Value} :
    IsTextOf x ('\x7b' :: joinWith [','] ((m :: ms).map memberText) ++ ['\x7d']) ↔
      x = .object (v :: vs) := by
  have hiff := @spellsMembers_iff _ _ _ _ h
  obtain ⟨inner, hinner⟩ : ∃ inner, joinWith [','] ((m :: ms).map memberText) = '"' :: inner := by
    cases ms <;> exact ⟨_, rfl⟩
  rw [hinner] at hiff ⊢
  constructor
  · rintro ⟨u, hu, front, back, hfront, hback, heq⟩
    rw [List.append_assoc] at heq
    obtain rfl := hfront.eq_nil (by decide) heq.symm
    rw [List.nil_append] at heq
    obtain rfl := hback.eq_nil_of_concat (by decide) heq.symm
    obtain ⟨members, rfl⟩ := Value.BeginsWith.exists_object (hu.beginsWith heq.symm)
    rw [List.append_nil] at heq
    cases hu with
    | @emptyObject t ht =>
      obtain rfl : '"' :: inner = t := List.append_cancel_right (List.cons.inj heq).2
      exact absurd (ht '"' List.mem_cons_self) (by decide)
    | @object _ t ht =>
      obtain rfl : '"' :: inner = t := List.append_cancel_right (List.cons.inj heq).2
      rw [hiff.mp ht]
  · rintro rfl
    exact ⟨_, .object (hiff.mpr rfl), padded_self _⟩

end IsolatedSite.Json
