/-
# JSON log lines

Five characters are replaced in a text, one after the other in what the ones before them left.  The
backslash is the first, so none of what is put in is replaced again, and the result is that of one
pass over the text (`escaped_eq`).

The line of an entry whose texts hold no control characters but those that are replaced is a JSON
text, of one object and nothing else, and the object has the parts of the entry: what was written
is what is read, and nothing else in the line can be taken for it (`json_line_sound`).
-/
import IsolatedSite.AccessLog
import IsolatedSite.Proofs.JsonTexts
import IsolatedSite.Proofs.LineBreaks
import IsolatedSite.Proofs.TimeTexts

namespace IsolatedSite.AccessEntry

open IsolatedSite.Json

/-! ## 1. One pass -/

/-- What a table of replacements puts in for a character. -/
def putIn (table : List (Char × Text)) (c : Char) : Text := (table.lookup c).getD [c]

theorem putIn_cons_self (r : Char × Text) (table : List (Char × Text)) :
    putIn (r :: table) r.1 = r.2 := by
  rw [putIn, List.lookup_cons, beq_self_eq_true, Option.getD_some]

theorem putIn_cons_of_ne {r : Char × Text} {c : Char} (h : c ≠ r.1) (table : List (Char × Text)) :
    putIn (r :: table) c = putIn table c := by
  rw [putIn, List.lookup_cons, beq_false_of_ne h, putIn]

/-- Replacing one character goes over the text once. -/
theorem replaceAll_singleton (old : Char) (new t : Text) :
    replaceAll [old] new t = t.flatMap fun c => if c = old then new else [c] := by
  induction t with
  | nil => rfl
  | cons c t ih =>
    rw [replaceAll] at ih
    rw [replaceAll, replaceFrom, List.flatMap_cons, ← ih]
    by_cases hc : c = old
    · simp [hc]
    · simp [hc, Ne.symm hc]

/-- A character that is not in the table stays as it is. -/
theorem putIn_of_not_mem {table : List (Char × Text)} {c : Char} (h : ∀ r ∈ table, r.1 ≠ c) :
    putIn table c = [c] := by
  have hnone : table.lookup c = none := by
    rw [List.lookup_eq_none_iff]
    intro r hr
    rw [bne_iff_ne]
    exact (h r hr).symm
  rw [putIn, hnone, Option.getD_none]

theorem flatMap_putIn_of_not_mem {table : List (Char × Text)} {t : Text}
    (h : ∀ r ∈ table, r.1 ∉ t) : t.flatMap (putIn table) = t := by
  have hself : ∀ c ∈ t, putIn table c = [c] := fun c hc =>
    putIn_of_not_mem fun r hr heq => h r hr (heq ▸ hc)
  rw [List.flatMap_congr hself, List.flatMap_singleton']

/-- **Replacements one after the other** are one pass, if nothing that is put in is replaced later.
The induction is on the table. -/
theorem foldl_replaceAll_singleton {table : List (Char × Text)}
    (h : table.Pairwise fun r s => s.1 ∉ r.2) (t : Text) :
    table.foldl (fun t r => replaceAll [r.1] r.2 t) t = t.flatMap (putIn table) := by
  induction table generalizing t with
  | nil => exact (List.flatMap_singleton' t).symm
  | cons r table ih =>
    obtain ⟨hr, htable⟩ := List.pairwise_cons.mp h
    rw [List.foldl_cons, ih htable, replaceAll_singleton, List.flatMap_assoc]
    refine List.flatMap_congr ?_
    intro c _
    by_cases hc : c = r.1
    · rw [if_pos hc, flatMap_putIn_of_not_mem hr, hc, putIn_cons_self]
    · rw [if_neg hc, List.flatMap_singleton, putIn_cons_of_ne hc]

/-- **The five replacements** are one pass. -/
theorem escaped_eq (t : Text) : escaped t = t.flatMap (putIn escapes) :=
  foldl_replaceAll_singleton (by decide) t

/-! ## 2. Texts as strings -/

/-- The characters of a text that is logged: control characters only if they are replaced. -/
def IsClean (t : Text) : Prop := ∀ c ∈ t, 32 ≤ c.toNat ∨ c ∈ ['\t', '\n', '\r']

-- by the list, and not by going through all characters
instance (t : Text) : Decidable (IsClean t) :=
  List.decidableBAll (fun c : Char => 32 ≤ c.toNat ∨ c ∈ ['\t', '\n', '\r']) t

/-- The characters that are replaced. -/
def replaced : List Char := ['\\', '"', '\n', '\r', '\t']

theorem putIn_escapes_of_not_mem {c : Char} (h : c ∉ replaced) : putIn escapes c = [c] := by
  refine putIn_of_not_mem fun r hr heq => h ?_
  have hall : ∀ r ∈ escapes, r.1 ∈ replaced := by decide
  exact heq ▸ hall r hr

/-- A character is replaced by an escape of its own, or stands for itself. -/
theorem spellsChar_putIn {c : Char} (h : 32 ≤ c.toNat ∨ c ∈ ['\t', '\n', '\r']) :
    SpellsChar c (putIn escapes c) := by
  by_cases hc : c ∈ replaced
  · simp only [replaced, List.mem_cons, List.not_mem_nil, or_false] at hc
    rcases hc with rfl | rfl | rfl | rfl | rfl <;> exact .short (by decide)
  · rw [putIn_escapes_of_not_mem hc]
    simp only [replaced, List.mem_cons, List.not_mem_nil, or_false, not_or] at h hc
    obtain ⟨hback, hquote, hlf, hcr, htab⟩ := hc
    refine .itself ?_ hquote hback
    simpa [hlf, hcr, htab] using h

theorem spellsChars_escaped {t : Text} (h : IsClean t) : SpellsChars t (escaped t) := by
  rw [escaped_eq]
  induction t with
  | nil => exact .nil
  | cons c t ih =>
    obtain ⟨hc, ht⟩ := List.forall_mem_cons.mp h
    exact .cons (spellsChar_putIn hc) (ih ht)

/-- **A clean text** in quotation marks spells itself and nothing else. -/
theorem spellsOnly_quoted {t : Text} (h : IsClean t) : SpellsOnly (.text t) (quoted t) :=
  spellsOnly_text (spellsChars_escaped h)

theorem isOneLine_putIn (c : Char) : Text.IsOneLine (putIn escapes c) := by
  by_cases hc : c ∈ replaced
  · have hall : (replaced.all fun c => decide (Text.IsOneLine (putIn escapes c))) = true := by
      decide
    exact of_decide_eq_true (List.all_eq_true.mp hall c hc)
  · rw [putIn_escapes_of_not_mem hc]
    intro d hd
    obtain rfl := List.mem_singleton.mp hd
    constructor
    · rintro rfl
      exact hc (by decide)
    · rintro rfl
      exact hc (by decide)

/-- **No line break** is left in it. -/
theorem isOneLine_quoted (t : Text) : Text.IsOneLine (quoted t) := by
  have hquote : Text.IsOneLine ['"'] := by decide
  have hinner : Text.IsOneLine (escaped t) := by
    rw [escaped_eq]
    intro d hd
    obtain ⟨c, -, hc⟩ := List.mem_flatMap.mp hd
    exact isOneLine_putIn c d hc
  exact (hquote.append hinner).append hquote

/-- A time is its own escaped form. -/
theorem quoted_isoText (t : Calendar.LocalTime) : quoted t.isoText = '"' :: t.isoText ++ ['"'] := by
  have htime := Calendar.isTimeText_isoText t
  have hall : ∀ r ∈ escapes, ¬ Calendar.IsTimeChar r.1 := by decide
  rw [quoted, escaped_eq, flatMap_putIn_of_not_mem fun r hr => htime.not_mem (hall r hr)]

theorem isClean_isoText (t : Calendar.LocalTime) : IsClean t.isoText := fun c hc =>
  .inl ((Calendar.isTimeText_isoText t).isPlain c hc).1

/-! ## 3. Members -/

/-- A text, or null if there is none. -/
def textOrNull (t : Option Text) : Json.Value := (t.map Json.Value.text).getD .null

/-- A whole number, or null if there is none. -/
def numberOrNull (n : Option Nat) : Json.Value := (n.map fun n => Json.Value.number n).getD .null

/-- The names of the members, in order. -/
def memberNames : List Text :=
  ["remote_addr".toList, "time".toList, "method".toList, "path".toList, "query".toList,
   "http_version".toList, "status".toList, "body_bytes".toList, "referer".toList,
   "user_agent".toList, "request_time_us".toList]

theorem map_members (e : AccessEntry) : e.members.map Prod.fst = memberNames := rfl

/-- What the members of the object say, in order. -/
def memberValues (e : AccessEntry) : List (Text × Json.Value) :=
  [("remote_addr".toList, .text e.client), ("time".toList, .text e.time.isoText),
   ("method".toList, .text e.method), ("path".toList, .text e.path),
   ("query".toList, textOrNull e.query), ("http_version".toList, .text e.httpVersion),
   ("status".toList, .number e.status), ("body_bytes".toList, numberOrNull e.bodyBytes),
   ("referer".toList, textOrNull e.referer), ("user_agent".toList, textOrNull e.userAgent),
   ("request_time_us".toList, .number e.microseconds)]

/-- The texts of an entry. -/
def texts (e : AccessEntry) : List Text :=
  [e.client, e.method, e.path, e.httpVersion] ++ e.query.toList ++ e.referer.toList ++
    e.userAgent.toList

/-- An entry none of whose texts holds a control character but tabs and line breaks. -/
def HasCleanTexts (e : AccessEntry) : Prop := ∀ t ∈ e.texts, IsClean t

instance (e : AccessEntry) : Decidable e.HasCleanTexts := List.decidableBAll IsClean e.texts

theorem spellsOnly_textOrNull {t : Option Text} (h : ∀ s ∈ t, IsClean s) :
    SpellsOnly (textOrNull t) (orNull (t.map quoted)) := by
  cases t with
  | none => exact spellsOnly_null
  | some s => exact spellsOnly_quoted (h s rfl)

theorem spellsOnly_numberOrNull (n : Option Nat) :
    SpellsOnly (numberOrNull n) (orNull (n.map Decimal.ofNat)) := by
  cases n with
  | none => exact spellsOnly_null
  | some n => exact spellsOnly_ofNat n

/-- A text that needs no escapes. -/
def IsBare (t : Text) : Prop := ∀ c ∈ t, 32 ≤ c.toNat ∧ c ≠ '"' ∧ c ≠ '\\'

-- by the list, and not by going through all characters
instance (t : Text) : Decidable (IsBare t) :=
  List.decidableBAll (fun c : Char => 32 ≤ c.toNat ∧ c ≠ '"' ∧ c ≠ '\\') t

/-- A name that needs no escapes is written as it is. -/
theorem means_of_isBare {name w : Text} {v : Json.Value} (hname : IsBare name)
    (h : SpellsOnly v w) : Means (name, w) (name, v) where
  name := by
    show SpellsChars name name
    induction name with
    | nil => exact .nil
    | cons c name ih =>
      obtain ⟨⟨hlow, hquote, hback⟩, hname⟩ := List.forall_mem_cons.mp hname
      exact .cons (.itself hlow hquote hback) (ih hname)
  value := h

/-- **Every member** spells what it says. -/
theorem means_members {e : AccessEntry} (h : e.HasCleanTexts) :
    List.Forall₂ Means e.members e.memberValues := by
  have htext : ∀ t ∈ e.texts, SpellsOnly (.text t) (quoted t) := fun t ht =>
    spellsOnly_quoted (h t ht)
  have hoption : ∀ t : Option Text, (∀ s ∈ t, s ∈ e.texts) →
      SpellsOnly (textOrNull t) (orNull (t.map quoted)) := fun t ht =>
    spellsOnly_textOrNull fun s hs => h s (ht s hs)
  have htime : SpellsOnly (.text e.time.isoText) ('"' :: e.time.isoText ++ ['"']) :=
    quoted_isoText e.time ▸ spellsOnly_quoted (isClean_isoText e.time)
  unfold members memberValues
  refine .cons (means_of_isBare (by decide) (htext _ (by simp [texts]))) ?_
  refine .cons (means_of_isBare (by decide) htime) ?_
  refine .cons (means_of_isBare (by decide) (htext _ (by simp [texts]))) ?_
  refine .cons (means_of_isBare (by decide) (htext _ (by simp [texts]))) ?_
  refine .cons (means_of_isBare (by decide) (hoption _ fun s hs => by simp_all [texts])) ?_
  refine .cons (means_of_isBare (by decide) (htext _ (by simp [texts]))) ?_
  refine .cons (means_of_isBare (by decide) (spellsOnly_ofNat _)) ?_
  refine .cons (means_of_isBare (by decide) (spellsOnly_numberOrNull _)) ?_
  refine .cons (means_of_isBare (by decide) (hoption _ fun s hs => by simp_all [texts])) ?_
  refine .cons (means_of_isBare (by decide) (hoption _ fun s hs => by simp_all [texts])) ?_
  exact .cons (means_of_isBare (by decide) (spellsOnly_ofNat _)) .nil

/-- The parts of an entry that its object has, the time as it is written. -/
structure Agrees (e e' : AccessEntry) : Prop where
  client : e.client = e'.client
  time : e.time.isoText = e'.time.isoText
  method : e.method = e'.method
  path : e.path = e'.path
  query : e.query = e'.query
  httpVersion : e.httpVersion = e'.httpVersion
  status : e.status = e'.status
  bodyBytes : e.bodyBytes = e'.bodyBytes
  referer : e.referer = e'.referer
  userAgent : e.userAgent = e'.userAgent
  microseconds : e.microseconds = e'.microseconds

theorem textOrNull_injective : Function.Injective textOrNull := by
  intro s t h
  cases s <;> cases t <;> simp_all [textOrNull]

theorem numberOrNull_injective : Function.Injective numberOrNull := by
  intro m n h
  cases m <;> cases n <;> simp_all [numberOrNull]

/-- **The object has the parts of the entry**: what is missing is no text, not even an empty one. -/
theorem agrees_of_memberValues_eq {e e' : AccessEntry} (h : e.memberValues = e'.memberValues) :
    e.Agrees e' := by
  simp only [memberValues, List.cons.injEq, Prod.mk.injEq, true_and, and_true,
    Json.Value.text.injEq, Json.Value.number.injEq, textOrNull_injective.eq_iff,
    numberOrNull_injective.eq_iff, Nat.cast_inj] at h
  obtain ⟨hclient, htime, hmethod, hpath, hquery, hversion, hstatus, hbytes, hreferer, hagent,
    hduration⟩ := h
  exact ⟨hclient, htime, hmethod, hpath, hquery, hversion, hstatus, hbytes, hreferer, hagent,
    hduration⟩

theorem Agrees.jsonLine_eq {e e' : AccessEntry} (h : e.Agrees e') : e.jsonLine = e'.jsonLine := by
  simp only [jsonLine, members, h.client, h.time, h.method, h.path, h.query, h.httpVersion,
    h.status, h.bodyBytes, h.referer, h.userAgent, h.microseconds]

/-! ## 4. Lines -/

theorem isOneLine_orNull {α : Type} {f : α → Text} (h : ∀ x, Text.IsOneLine (f x))
    (part : Option α) : Text.IsOneLine (orNull (part.map f)) := by
  cases part with
  | none => exact show Text.IsOneLine "null".toList by decide
  | some x => exact h x

theorem isOneLine_members (e : AccessEntry) :
    ∀ m ∈ e.members, Text.IsOneLine (memberText m) := by
  have hnames : ∀ name ∈ memberNames, Text.IsOneLine name := by decide
  have hnumber : ∀ n, Text.IsOneLine (Decimal.ofNat n) := fun n =>
    (Decimal.isPlain_ofNat n).isOneLine
  have htime : Text.IsOneLine ('"' :: e.time.isoText ++ ['"']) :=
    quoted_isoText e.time ▸ isOneLine_quoted e.time.isoText
  have hvalues : ∀ m ∈ e.members, Text.IsOneLine m.2 := by
    simp only [members, List.forall_mem_cons, List.not_mem_nil, false_implies, implies_true,
      and_true, isOneLine_quoted, isOneLine_orNull isOneLine_quoted, isOneLine_orNull hnumber,
      hnumber, htime]
  intro m hm
  have hquote : Text.IsOneLine ['"'] := by decide
  have hcolon : Text.IsOneLine [':'] := by decide
  have hname := hnames m.1 (map_members e ▸ List.mem_map_of_mem hm)
  exact ((hquote.append hname).append hquote).append (hcolon.append (hvalues m hm))

theorem isOneLine_jsonLine (e : AccessEntry) : Text.IsOneLine e.jsonLine := by
  have hopen : Text.IsOneLine ['\x7b'] := by decide
  have hclose : Text.IsOneLine ['\x7d'] := by decide
  have hmembers : Text.IsOneLine (joinWith [','] (e.members.map memberText)) :=
    forall_mem_joinWith (show Text.IsOneLine [','] by decide)
      (List.forall_mem_map.mpr (isOneLine_members e))
  exact (hopen.append hmembers).append hclose

/-- **The line is a JSON text** of the object, and of nothing else. -/
theorem isTextOf_jsonLine_iff {e : AccessEntry} (h : e.HasCleanTexts) {v : Json.Value} :
    IsTextOf v e.jsonLine ↔ v = .object e.memberValues :=
  isTextOf_object_iff (means_members h)

/-- **JSON lines are sound.**  If the texts of an entry hold no control characters but tabs and
line breaks, its line holds no line break and is a JSON text of one value, an object with a member
for each part of the entry.  So two such lines are the same exactly if the entries agree in all
these parts, where a part that is missing agrees with no text, not even an empty one. -/
theorem json_line_sound {e : AccessEntry} (h : e.HasCleanTexts) :
    Text.IsOneLine (e.line .json) ∧
      (∀ v, IsTextOf v (e.line .json) ↔ v = .object e.memberValues) ∧
      ∀ e' : AccessEntry, e'.HasCleanTexts → (e.line .json = e'.line .json ↔ e.Agrees e') := by
  refine ⟨isOneLine_jsonLine e, fun v => isTextOf_jsonLine_iff h, ?_⟩
  intro e' h'
  constructor
  · intro hline
    have htext : IsTextOf (.object e.memberValues) (e.line .json) :=
      (isTextOf_jsonLine_iff h).mpr rfl
    rw [hline] at htext
    exact agrees_of_memberValues_eq (Json.Value.object.inj ((isTextOf_jsonLine_iff h').mp htext))
  · exact Agrees.jsonLine_eq

/-- An entry with everything that is replaced in its path, an empty query, no referer, and a user
agent that is spelled like nothing. -/
def oddEntry : AccessEntry where
  client := "::1".toList
  time := ⟨⟨0, 0⟩, 0⟩
  method := "GET".toList
  path := "/\\\"\n\r\t\\n".toList
  query := some []
  userAgent := some "null".toList

/-- It is one line, it says what the entry says, and without the query it is another line. -/
theorem oddEntry_sound :
    oddEntry.HasCleanTexts ∧ Text.IsOneLine (oddEntry.line .json) ∧
      IsTextOf (.object oddEntry.memberValues) (oddEntry.line .json) ∧
      oddEntry.line .json ≠ ({ oddEntry with query := none } : AccessEntry).line .json := by
  have hclean : oddEntry.HasCleanTexts := by decide
  have hclean' : ({ oddEntry with query := none } : AccessEntry).HasCleanTexts := by decide
  obtain ⟨hline, htext, hsame⟩ := json_line_sound hclean
  refine ⟨hclean, hline, (htext _).mpr rfl, ?_⟩
  intro heq
  cases ((hsame _ hclean').mp heq).query

end IsolatedSite.AccessEntry
