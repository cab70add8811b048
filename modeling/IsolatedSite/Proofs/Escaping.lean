/-
# Text in pages

What is escaped reads back as it was, also in front of other text (`unescape_escape_append`) and
where it looks like an entity itself, since every `&` that is written begins one.  Nothing that has
a meaning in markup is left in it (`not_mem_escape`), so a reader of markup finds the end of an
escaped text where it was put.

`escaping_exact` says what escaping is good for, and that nothing else is: the texts in which no
character but the `&` of an entity has a meaning (`IsSafe`) are those that are written for some
text, and each of them is written for one text only.
-/
import IsolatedSite.Proofs.Cutting
import IsolatedSite.Text.Html
import Mathlib.Data.List.Basic

namespace IsolatedSite.Html

/-! ## 1. Entities -/

/-- The five entities, each behind the character that it stands for. -/
def entities : List (Char × Text) :=
  [('&', "&amp;".toList), ('<', "&lt;".toList), ('>', "&gt;".toList), ('"', "&quot;".toList),
   ('\'', "&#x27;".toList)]

/-- The characters that have a meaning in markup and are not in any entity. -/
def markup : Text := ['<', '>', '"', '\'']

theorem entity?_eq_some_iff {c : Char} {e : Text} : entity? c = some e ↔ (c, e) ∈ entities := by
  constructor
  · intro h
    unfold entity? at h
    split at h <;> cases h <;> decide
  · intro h
    simp only [entities, List.mem_cons, List.not_mem_nil, or_false, Prod.mk.injEq] at h
    rcases h with ⟨rfl, rfl⟩ | ⟨rfl, rfl⟩ | ⟨rfl, rfl⟩ | ⟨rfl, rfl⟩ | ⟨rfl, rfl⟩ <;> rfl

theorem entity?_eq_none_iff {c : Char} : entity? c = none ↔ c ∉ '&' :: markup := by
  constructor
  · intro h hmem
    have hall : (('&' :: markup).all fun c => (entity? c).isSome) = true := by decide
    have hsome := List.all_eq_true.mp hall c hmem
    rw [h] at hsome
    cases hsome
  · intro h
    unfold entity?
    split <;> simp_all [markup]

/-- An entity begins with `&`; there is no other `&` in it, and nothing with a meaning in markup. -/
theorem entity_spec {c : Char} {e : Text} (h : (c, e) ∈ entities) :
    (∃ rest, e = '&' :: rest ∧ '&' ∉ rest) ∧ ∀ d ∈ markup, d ∉ e := by
  have hbegins : ∀ p ∈ entities, p.2 = '&' :: p.2.tail ∧ '&' ∉ p.2.tail := by decide
  -- checked along the lists, since there are too many characters to go through
  have hclean : (entities.all fun p => markup.all fun d => !p.2.contains d) = true := by decide
  refine ⟨⟨_, hbegins _ h⟩, fun d hd => ?_⟩
  simpa using List.all_eq_true.mp (List.all_eq_true.mp hclean _ h) d hd

/-- Every entity begins with `&`, so nothing else is read as one. -/
theorem entityAt?_of_ne {c : Char} (h : c ≠ '&') (rest : Text) : entityAt? (c :: rest) = none := by
  simp [entityAt?, entity?, afterStart?, Ne.symm h]

theorem entityAt?_eq_some_iff {t rest : Text} {c : Char} :
    entityAt? t = some (c, rest) ↔ ∃ e, (c, e) ∈ entities ∧ t = e ++ rest := by
  constructor
  · intro h
    obtain ⟨d, -, hd⟩ := List.exists_of_findSome?_eq_some h
    obtain ⟨e, he, hrest⟩ := Option.bind_eq_some_iff.mp hd
    obtain ⟨after, hafter, heq⟩ := Option.map_eq_some_iff.mp hrest
    obtain ⟨rfl, rfl⟩ := Prod.mk.inj heq
    exact ⟨e, entity?_eq_some_iff.mp he, afterStart?_eq_some_iff.mp hafter⟩
  · rintro ⟨e, he, rfl⟩
    simp only [entities, List.mem_cons, List.not_mem_nil, or_false, Prod.mk.injEq] at he
    rcases he with ⟨rfl, rfl⟩ | ⟨rfl, rfl⟩ | ⟨rfl, rfl⟩ | ⟨rfl, rfl⟩ | ⟨rfl, rfl⟩ <;> rfl

/-- What follows an entity is shorter. -/
theorem length_lt_of_entityAt? {t rest : Text} {c : Char} (h : entityAt? t = some (c, rest)) :
    rest.length < t.length := by
  obtain ⟨e, he, rfl⟩ := entityAt?_eq_some_iff.mp h
  obtain ⟨⟨inner, rfl, -⟩, -⟩ := entity_spec he
  rw [List.length_append, List.length_cons]
  omega

/-! ## 2. Reading -/

/-- Two readings agree if both may go on to the end.  The induction is on what the first one may
read; an entity takes more than one character off. -/
theorem unescapeFrom_congr {n m : Nat} {t : Text} (hn : t.length ≤ n) (hm : t.length ≤ m) :
    unescapeFrom n t = unescapeFrom m t := by
  induction n generalizing m t with
  | zero =>
    obtain rfl := List.eq_nil_of_length_eq_zero (Nat.le_zero.mp hn)
    cases m <;> rfl
  | succ n ih =>
    cases t with
    | nil => cases m <;> rfl
    | cons c t =>
      rw [List.length_cons] at hn hm
      obtain ⟨m, rfl⟩ : ∃ fewer, m = fewer + 1 := ⟨m - 1, by omega⟩
      rw [unescapeFrom, unescapeFrom]
      cases hat : entityAt? (c :: t) with
      | none => simp only [ih (m := m) (t := t) (by omega) (by omega)]
      | some found =>
        obtain ⟨d, rest⟩ := found
        have hlt := length_lt_of_entityAt? hat
        rw [List.length_cons] at hlt
        simp only [ih (m := m) (t := rest) (by omega) (by omega)]

/-- **An entity** is read as its character. -/
theorem unescape_entity {c : Char} {e : Text} (h : (c, e) ∈ entities) (rest : Text) :
    unescape (e ++ rest) = c :: unescape rest := by
  have hat : entityAt? (e ++ rest) = some (c, rest) := entityAt?_eq_some_iff.mpr ⟨e, h, rfl⟩
  have hlt := length_lt_of_entityAt? hat
  obtain ⟨⟨inner, rfl, -⟩, -⟩ := entity_spec h
  rw [List.cons_append] at hat hlt ⊢
  rw [List.length_cons] at hlt
  rw [unescape, List.length_cons, unescapeFrom, hat]
  simp only [unescapeFrom_congr (Nat.le_of_lt_succ hlt) (Nat.le_refl _), unescape]

/-- **Where no entity begins**, a character is read as itself. -/
theorem unescape_char {c : Char} {rest : Text} (h : entityAt? (c :: rest) = none) :
    unescape (c :: rest) = c :: unescape rest := by
  rw [unescape, List.length_cons, unescapeFrom, h]
  rfl

/-! ## 3. Writing -/

theorem escape_append (a b : Text) : escape (a ++ b) = escape a ++ escape b := List.flatMap_append

theorem escape_cons_of_mem {c : Char} {e : Text} (h : (c, e) ∈ entities) (t : Text) :
    escape (c :: t) = e ++ escape t := by
  rw [escape, List.flatMap_cons, entity?_eq_some_iff.mpr h]
  rfl

theorem escape_cons_of_not_mem {c : Char} (h : c ∉ '&' :: markup) (t : Text) :
    escape (c :: t) = c :: escape t := by
  rw [escape, List.flatMap_cons, entity?_eq_none_iff.mpr h]
  rfl

/-- The ways in which a character is written in front of a text: as its entity, or as it is. -/
theorem escape_cons_cases (c : Char) (t : Text) :
    (∃ e, (c, e) ∈ entities ∧ escape (c :: t) = e ++ escape t) ∨
      (c ∉ '&' :: markup ∧ escape (c :: t) = c :: escape t) := by
  cases h : entity? c with
  | none =>
    have hc := entity?_eq_none_iff.mp h
    exact Or.inr ⟨hc, escape_cons_of_not_mem hc t⟩
  | some e =>
    have he := entity?_eq_some_iff.mp h
    exact Or.inl ⟨e, he, escape_cons_of_mem he t⟩

/-- **What is escaped reads back**, whatever follows it. -/
theorem unescape_escape_append (s rest : Text) :
    unescape (escape s ++ rest) = s ++ unescape rest := by
  induction s with
  | nil => rfl
  | cons c s ih =>
    rcases escape_cons_cases c s with ⟨e, he, heq⟩ | ⟨hc, heq⟩
    · rw [heq, List.append_assoc, unescape_entity he, ih, List.cons_append]
    · have hne : c ≠ '&' := fun hamp => hc (hamp ▸ List.mem_cons_self)
      rw [heq, List.cons_append, unescape_char (entityAt?_of_ne hne _), ih, List.cons_append]

theorem unescape_escape (t : Text) : unescape (escape t) = t := by
  have h := unescape_escape_append t []
  rw [List.append_nil] at h
  rw [h]
  exact List.append_nil t

/-! ## 4. Safe texts -/

/-- Nothing in a text has a meaning but its entities: there is no other markup, and every `&` begins
one of the five. -/
structure IsSafe (t : Text) : Prop where
  clean : ∀ d ∈ markup, d ∉ t
  begins : ∀ front behind, t = front ++ '&' :: behind →
    ∃ c e, (c, e) ∈ entities ∧ e <+: '&' :: behind

theorem isSafe_nil : IsSafe [] := ⟨by simp, by simp⟩

theorem IsSafe.of_append {front t : Text} (h : IsSafe (front ++ t)) : IsSafe t := by
  refine ⟨fun d hd hmem => h.clean d hd (List.mem_append_right _ hmem), ?_⟩
  rintro above behind rfl
  exact h.begins (front ++ above) behind (List.append_assoc _ _ _).symm

theorem IsSafe.cons {c : Char} {t : Text} (hc : c ∉ '&' :: markup) (h : IsSafe t) :
    IsSafe (c :: t) := by
  obtain ⟨hamp, hmarkup⟩ : c ≠ '&' ∧ c ∉ markup := by simpa using hc
  constructor
  · intro d hd hmem
    rcases List.mem_cons.mp hmem with rfl | hmem
    · exact hmarkup hd
    · exact h.clean d hd hmem
  · intro front behind heq
    cases front with
    | nil => exact absurd (List.cons.inj heq).1 hamp
    | cons x front => exact h.begins front behind (List.cons.inj heq).2

theorem IsSafe.entity_append {c : Char} {e t : Text} (he : (c, e) ∈ entities) (h : IsSafe t) :
    IsSafe (e ++ t) := by
  obtain ⟨⟨inner, hinner, hnone⟩, hclean⟩ := entity_spec he
  constructor
  · intro d hd hmem
    rcases List.mem_append.mp hmem with hmem | hmem
    · exact hclean d hd hmem
    · exact h.clean d hd hmem
  · intro front behind heq
    cases front with
    | nil => exact ⟨c, e, he, t, heq⟩
    | cons x front =>
      -- the entity is cut behind its own `&`, so the other one stands in what follows
      rw [hinner, List.cons_append, List.cons_append] at heq
      rcases List.append_eq_append_iff.mp (List.cons.inj heq).2 with
        ⟨above, -, ht⟩ | ⟨above, hcut, hrest⟩
      · exact h.begins above behind ht
      · cases above with
        | nil => exact h.begins [] behind hrest.symm
        | cons y above =>
          obtain ⟨rfl, -⟩ := List.cons.inj hrest
          exact absurd (hcut ▸ List.mem_append_right _ List.mem_cons_self) hnone

/-- **What is escaped is safe.** -/
theorem isSafe_escape (s : Text) : IsSafe (escape s) := by
  induction s with
  | nil => exact isSafe_nil
  | cons c s ih =>
    rcases escape_cons_cases c s with ⟨e, he, heq⟩ | ⟨hc, heq⟩
    · exact heq ▸ ih.entity_append he
    · exact heq ▸ ih.cons hc

/-- **What is safe is escaped**: it is what is written for the text that is read in it.  The
induction is on the length, since an entity is read in one go. -/
theorem IsSafe.escape_unescape {t : Text} (h : IsSafe t) : escape (unescape t) = t := by
  induction hlength : t.length using Nat.strong_induction_on generalizing t with
  | _ n ih =>
    cases t with
    | nil => rfl
    | cons c t =>
      by_cases hamp : c = '&'
      · subst hamp
        obtain ⟨d, e, he, rest, heq⟩ := h.begins [] t rfl
        have hlt := length_lt_of_entityAt? (entityAt?_eq_some_iff.mpr ⟨e, he, heq.symm⟩)
        rw [← heq] at h hlength hlt ⊢
        rw [unescape_entity he, escape_cons_of_mem he, ih _ (hlength ▸ hlt) h.of_append rfl]
      · have hc : c ∉ '&' :: markup := by
          rw [List.mem_cons]
          rintro (heq | hmem)
          · exact hamp heq
          · exact h.clean c hmem List.mem_cons_self
        have hlt : t.length < n := by
          rw [← hlength, List.length_cons]
          exact Nat.lt_succ_self _
        have htail : IsSafe t := @IsSafe.of_append [c] t h
        rw [unescape_char (entityAt?_of_ne hamp t), escape_cons_of_not_mem hc,
          ih _ hlt htail rfl]

/-- **Nothing in an escaped text** has a meaning in markup. -/
theorem not_mem_escape {d : Char} (h : d ∈ markup) (t : Text) : d ∉ escape t :=
  (isSafe_escape t).clean d h

/-- **Escaping is exact.**  What is written for a text is safe and reads back as the text, also in
front of other text; texts may be escaped in pieces; no two texts are written alike; and the safe
texts are all written for some text. -/
theorem escaping_exact :
    (∀ s : Text, IsSafe (escape s) ∧ unescape (escape s) = s) ∧
    (∀ s rest : Text, unescape (escape s ++ rest) = s ++ unescape rest) ∧
    (∀ a b : Text, escape (a ++ b) = escape a ++ escape b) ∧
    Function.Injective escape ∧
    ∀ t : Text, IsSafe t ↔ ∃ s, escape s = t := by
  refine ⟨fun s => ⟨isSafe_escape s, unescape_escape s⟩, unescape_escape_append, escape_append,
    Function.LeftInverse.injective unescape_escape, fun t => ⟨?_, ?_⟩⟩
  · intro h
    exact ⟨unescape t, h.escape_unescape⟩
  · rintro ⟨s, rfl⟩
    exact isSafe_escape s

/-- What looks like an entity is escaped like anything else, and a lone `&` is left alone. -/
example : escape "a&lt;&b".toList = "a&amp;lt;&amp;b".toList ∧
    unescape "a&lt;&b".toList = "a<&b".toList := by decide +kernel

end IsolatedSite.Html
