/-
# A table that is read has each key once

Whatever its notation, a settings file is read as a document in which no table holds a key twice
(`SettingsFormat.hasDistinctKeys_of_read?`), so looking a key up finds all that the file says under
it, and what layering asks of a file is about how its keys are spelled
(`Settings.hasPlainKeys_of_read?`).

The three readers come to this in three ways.  JSON puts each member in the place of an earlier one
with the same key; TOML refuses a key that is there already and changes tables in place; YAML
refuses it as well, but keys that differ as nodes may be written alike, and then the later one
counts.
-/
import IsolatedSite.Proofs.Layering

namespace IsolatedSite.Document

/-! ## 1. Documents -/

/-- A document none of whose tables holds a key twice. -/
inductive HasDistinctKeys : Document → Prop where
  | null : HasDistinctKeys .null
  | bool (b : Bool) : HasDistinctKeys (.bool b)
  | int (n : Int) : HasDistinctKeys (.int n)
  | float (x : Number.Binary64) : HasDistinctKeys (.float x)
  | text (t : Text) : HasDistinctKeys (.text t)
  | list {ds : List Document} (items : ∀ d ∈ ds, HasDistinctKeys d) : HasDistinctKeys (.list ds)
  | table {ms : List (Text × Document)} (keys : (ms.map Prod.fst).Nodup)
      (members : ∀ m ∈ ms, HasDistinctKeys m.2) : HasDistinctKeys (.table ms)

theorem hasDistinctKeys_table_iff {ms : List (Text × Document)} :
    HasDistinctKeys (.table ms) ↔
      (ms.map Prod.fst).Nodup ∧ ∀ m ∈ ms, HasDistinctKeys m.2 := by
  constructor
  · rintro ⟨⟩
    rename_i keys members
    exact ⟨keys, members⟩
  · rintro ⟨keys, members⟩
    exact .table keys members

theorem HasDistinctKeys.emptyTable : HasDistinctKeys (.table []) := .table List.nodup_nil (by simp)

/-- Putting a member in keeps the keys distinct. -/
theorem HasDistinctKeys.put {ms : List (Text × Document)} {key : Text} {d : Document}
    (h : HasDistinctKeys (.table ms)) (hd : HasDistinctKeys d) :
    HasDistinctKeys (.table (putMember key d ms)) := by
  obtain ⟨keys, members⟩ := hasDistinctKeys_table_iff.mp h
  refine .table (nodup_putMember keys) fun m hm => ?_
  rcases mem_putMember hm with rfl | hm
  · exact hd
  · exact members m hm

/-- What was read, changed, with the text behind it. -/
theorem exists_of_map_fst {α β : Type} {read : Option (α × Text)} {f : α → β} {b : β} {rest : Text}
    (h : read.map (fun p => (f p.1, p.2)) = some (b, rest)) :
    ∃ a, read = some (a, rest) ∧ b = f a := by
  obtain ⟨⟨a, rest'⟩, ha, heq⟩ := Option.map_eq_some_iff.mp h
  obtain ⟨rfl, rfl⟩ := Prod.mk.inj heq
  exact ⟨a, ha, rfl⟩

/-! ## 2. JSON -/

namespace Json

theorem hasDistinctKeys_numberOf? {negative : Bool} {whole : Text} {fraction : Option Text}
    {exponent : Option Int} {d : Document}
    (h : numberOf? negative whole fraction exponent = some d) : d.HasDistinctKeys := by
  unfold numberOf? at h
  dsimp only at h
  generalize (if negative then -(Nat.ofDigitChars 10 whole 0 : Int)
    else Nat.ofDigitChars 10 whole 0) = signed at h
  split at h
  · cases h
    exact .int _
  · split at h
    · cases h
      exact .float _
    · cases h

theorem hasDistinctKeys_number? {t rest : Text} {d : Document} (h : number? t = some (d, rest)) :
    d.HasDistinctKeys := by
  unfold number? at h
  obtain ⟨whole, hwhole, h⟩ := Option.bind_eq_some_iff.mp h
  obtain ⟨fraction, hfraction, h⟩ := Option.bind_eq_some_iff.mp h
  obtain ⟨exponent, hexponent, h⟩ := Option.bind_eq_some_iff.mp h
  obtain ⟨e, he, h⟩ := Option.bind_eq_some_iff.mp h
  obtain ⟨rfl, hrest⟩ := Prod.mk.inj (Option.some.inj h)
  exact hasDistinctKeys_numberOf? he

theorem hasDistinctKeys_word? {word : String} {d e : Document} {t rest : Text}
    (hd : d.HasDistinctKeys) (h : word? word d t = some (e, rest)) : e.HasDistinctKeys := by
  obtain ⟨after, -, heq⟩ := Option.map_eq_some_iff.mp h
  obtain ⟨rfl, -⟩ := Prod.mk.inj heq
  exact hd

/-- Values that are read with some fuel hold no key twice. -/
def ValuesDistinct (fuel : Nat) : Prop :=
  ∀ {depth t d rest}, value? depth fuel t = some (d, rest) → d.HasDistinctKeys

/-- Items that are read with some fuel hold no key twice. -/
def ItemsDistinct (fuel : Nat) : Prop :=
  ∀ {depth t ds rest}, items? depth fuel t = some (ds, rest) → ∀ d ∈ ds, d.HasDistinctKeys

/-- Members that are read with some fuel, behind others, keep the keys distinct. -/
def MembersDistinct (fuel : Nat) : Prop :=
  ∀ {depth read t ms rest}, HasDistinctKeys (.table read) →
    members? depth fuel read t = some (ms, rest) → HasDistinctKeys (.table ms)

section

variable {fuel : Nat}

theorem valuesDistinct_succ (hitems : ItemsDistinct fuel) (hmembers : MembersDistinct fuel) :
    ValuesDistinct (fuel + 1) := by
  intro depth t d rest h
  rw [value?] at h
  split at h
  · split at h
    · cases h
    · split at h
      · obtain ⟨rfl, -⟩ := Prod.mk.inj (Option.some.inj h)
        exact .emptyTable
      · obtain ⟨ms, hms, rfl⟩ := exists_of_map_fst h
        exact hmembers .emptyTable hms
  · split at h
    · cases h
    · split at h
      · obtain ⟨rfl, -⟩ := Prod.mk.inj (Option.some.inj h)
        exact .list (by simp)
      · obtain ⟨ds, hds, rfl⟩ := exists_of_map_fst h
        exact .list (hitems hds)
  · obtain ⟨s, -, rfl⟩ := exists_of_map_fst h
    exact .text s
  · exact hasDistinctKeys_word? .null h
  · exact hasDistinctKeys_word? (.bool _) h
  · exact hasDistinctKeys_word? (.bool _) h
  · exact hasDistinctKeys_number? h

theorem itemsDistinct_succ (hvalue : ValuesDistinct fuel) (hitems : ItemsDistinct fuel) :
    ItemsDistinct (fuel + 1) := by
  intro depth t ds rest h
  simp only [items?, Option.bind_eq_bind, Option.bind_eq_some_iff] at h
  obtain ⟨⟨d, t'⟩, hd, h⟩ := h
  split at h
  · simp only [Option.bind_eq_some_iff, Option.some.injEq, Prod.mk.injEq] at h
    obtain ⟨⟨more, t''⟩, hmore, rfl, -⟩ := h
    intro e he
    rcases List.mem_cons.mp he with rfl | he
    · exact hvalue hd
    · exact hitems hmore e he
  · obtain ⟨rfl, -⟩ := Prod.mk.inj (Option.some.inj h)
    intro e he
    obtain rfl := List.mem_singleton.mp he
    exact hvalue hd
  · cases h

theorem membersDistinct_succ (hvalue : ValuesDistinct fuel) (hmembers : MembersDistinct fuel) :
    MembersDistinct (fuel + 1) := by
  intro depth read t ms rest hread h
  rw [members?] at h
  split at h
  · simp only [Option.bind_eq_bind, Option.bind_eq_some_iff] at h
    obtain ⟨⟨key, t'⟩, -, h⟩ := h
    split at h
    · simp only [Option.bind_eq_some_iff] at h
      obtain ⟨⟨d, t''⟩, hd, h⟩ := h
      have hput : HasDistinctKeys (.table (putMember key d read)) := hread.put (hvalue hd)
      split at h
      · exact hmembers hput h
      · obtain ⟨rfl, -⟩ := Prod.mk.inj (Option.some.inj h)
        exact hput
      · cases h
    · cases h
  · cases h

end

/-- What the readers of values, items and members keep, whatever the fuel: each of them calls the
others with less. -/
theorem all_distinct (fuel : Nat) :
    ValuesDistinct fuel ∧ ItemsDistinct fuel ∧ MembersDistinct fuel := by
  induction fuel with
  | zero =>
    refine ⟨?_, ?_, ?_⟩
    · intro depth t d rest h
      cases h
    · intro depth t ds rest h
      cases h
    · intro depth read t ms rest hread h
      cases h
  | succ fuel ih =>
    obtain ⟨hvalue, hitems, hmembers⟩ := ih
    exact ⟨valuesDistinct_succ hitems hmembers, itemsDistinct_succ hvalue hitems,
      membersDistinct_succ hvalue hmembers⟩

theorem hasDistinctKeys_of_read? {t : Text} {d : Document} (h : read? t = some d) :
    d.HasDistinctKeys := by
  simp only [read?, Option.bind_eq_bind, Option.bind_eq_some_iff] at h
  obtain ⟨⟨d', rest⟩, hd, h⟩ := h
  split at h
  · obtain rfl := Option.some.inj h
    exact (all_distinct _).1 hd
  · cases h

end Json

/-! ## 3. TOML -/

namespace Toml

/-- A part of a document that is being built, none of whose tables holds a key twice. -/
inductive Node.IsDistinct : Node → Prop where
  | value {d : Document} (h : d.HasDistinctKeys) : IsDistinct (.value d)
  | table {made : Made} {ms : List (Text × Node)} (keys : (ms.map Prod.fst).Nodup)
      (members : ∀ m ∈ ms, IsDistinct m.2) : IsDistinct (.table made ms)
  | tables {items : List (List (Text × Node))} (keys : ∀ ms ∈ items, (ms.map Prod.fst).Nodup)
      (members : ∀ ms ∈ items, ∀ m ∈ ms, IsDistinct m.2) : IsDistinct (.tables items)

/-- Members of a table that is being built, with all that is below them. -/
structure AreDistinct (ms : Members) : Prop where
  keys : (ms.map Prod.fst).Nodup
  members : ∀ m ∈ ms, m.2.IsDistinct

theorem isDistinct_table_iff {made : Made} {ms : Members} :
    (Node.table made ms).IsDistinct ↔ AreDistinct ms := by
  constructor
  · rintro ⟨⟩
    constructor <;> assumption
  · rintro ⟨keys, members⟩
    exact .table keys members

theorem isDistinct_tables_iff {items : List Members} :
    (Node.tables items).IsDistinct ↔ ∀ ms ∈ items, AreDistinct ms := by
  constructor
  · rintro ⟨⟩
    rename_i keys members
    intro ms hms
    exact ⟨keys ms hms, members ms hms⟩
  · intro h
    exact .tables (fun ms hms => (h ms hms).keys) fun ms hms => (h ms hms).members

theorem AreDistinct.nil : AreDistinct [] := ⟨List.nodup_nil, by simp⟩

theorem AreDistinct.put {ms : Members} {key : Text} {n : Node} (h : AreDistinct ms)
    (hn : n.IsDistinct) : AreDistinct (putMember key n ms) := by
  refine ⟨nodup_putMember h.keys, fun m hm => ?_⟩
  rcases mem_putMember hm with rfl | hm
  · exact hn
  · exact h.members m hm

theorem AreDistinct.lookup {ms : Members} {key : Text} {n : Node} (h : AreDistinct ms)
    (hat : ms.lookup key = some n) : n.IsDistinct := h.members _ (mem_of_lookup hat)

/-- A change of members that keeps them distinct. -/
def Keeps (change : Members → Option Members) : Prop :=
  ∀ ms ms', AreDistinct ms → change ms = some ms' → AreDistinct ms'

/-- A change at the end of a path keeps all tables on the way. -/
theorem keeps_within {change : Members → Option Members} (h : Keeps change) (dotted : Bool)
    (path : List Text) : Keeps (within dotted change path) := by
  induction path with
  | nil => exact h
  | cons key path ih =>
    intro ms ms' hms hchange
    rw [within] at hchange
    split at hchange
    · obtain ⟨inner, hinner, rfl⟩ := Option.map_eq_some_iff.mp hchange
      exact hms.put (isDistinct_table_iff.mpr (ih _ _ .nil hinner))
    · rename_i made old hat
      have hold := isDistinct_table_iff.mp (hms.lookup hat)
      split at hchange
      · cases hchange
      · obtain ⟨inner, hinner, rfl⟩ := Option.map_eq_some_iff.mp hchange
        exact hms.put (isDistinct_table_iff.mpr (ih _ _ hold hinner))
    · rename_i items hat
      have hitems := isDistinct_tables_iff.mp (hms.lookup hat)
      have hlast : AreDistinct (items.getLast?.getD []) := by
        cases hlast : items.getLast? with
        | none => exact .nil
        | some ms => exact hitems ms (List.mem_of_getLast? hlast)
      split at hchange
      · cases hchange
      · obtain ⟨inner, hinner, rfl⟩ := Option.map_eq_some_iff.mp hchange
        refine hms.put (isDistinct_tables_iff.mpr fun ms hms => ?_)
        rcases List.mem_append.mp hms with hms | hms
        · exact hitems ms (List.dropLast_subset _ hms)
        · obtain rfl := List.mem_singleton.mp hms
          exact ih _ _ hlast hinner
    · cases hchange

theorem keeps_openTable (key : Text) : Keeps (openTable key) := by
  intro ms ms' hms h
  rw [openTable] at h
  split at h
  · obtain rfl := Option.some.inj h
    exact hms.put (isDistinct_table_iff.mpr .nil)
  · rename_i inner hat
    obtain rfl := Option.some.inj h
    exact hms.put (isDistinct_table_iff.mpr (isDistinct_table_iff.mp (hms.lookup hat)))
  · cases h

theorem keeps_openItem (key : Text) : Keeps (openItem key) := by
  intro ms ms' hms h
  rw [openItem] at h
  split at h
  · obtain rfl := Option.some.inj h
    refine hms.put (isDistinct_tables_iff.mpr fun ms hms => ?_)
    obtain rfl := List.mem_singleton.mp hms
    exact .nil
  · rename_i items hat
    obtain rfl := Option.some.inj h
    refine hms.put (isDistinct_tables_iff.mpr fun ms' hms' => ?_)
    rcases List.mem_append.mp hms' with hms' | hms'
    · exact isDistinct_tables_iff.mp (hms.lookup hat) ms' hms'
    · obtain rfl := List.mem_singleton.mp hms'
      exact .nil
  · cases h

theorem keeps_addValue {d : Document} (hd : d.HasDistinctKeys) (key : Text) :
    Keeps (addValue d key) := by
  intro ms ms' hms h
  rw [addValue] at h
  split at h
  · obtain rfl := Option.some.inj h
    exact hms.put (.value hd)
  · cases h

theorem keeps_atLast {action : Text → Members → Option Members} (h : ∀ key, Keeps (action key))
    (dotted : Bool) (path : List Text) : Keeps (atLast dotted action path) := by
  intro ms ms' hms hchange
  obtain ⟨key, -, hchange⟩ := Option.bind_eq_some_iff.mp hchange
  exact keeps_within (h key) dotted path.dropLast ms ms' hms hchange

theorem documentMembers_eq_map (ms : Members) :
    documentMembers ms = ms.map fun m => (m.1, m.2.document) := by
  induction ms with
  | nil => rw [documentMembers]; rfl
  | cons m ms ih => rw [documentMembers, ih]; rfl

theorem documentTables_eq_map (items : List Members) :
    documentTables items = items.map fun ms => .table (documentMembers ms) := by
  induction items with
  | nil => rw [documentTables]; rfl
  | cons ms items ih => rw [documentTables, ih]; rfl

theorem hasDistinctKeys_documentMembers {ms : Members} (keys : (ms.map Prod.fst).Nodup)
    (members : ∀ m ∈ ms, m.2.document.HasDistinctKeys) :
    HasDistinctKeys (.table (documentMembers ms)) := by
  rw [documentMembers_eq_map]
  refine .table ?_ ?_
  · rw [List.map_map]
    exact keys
  · intro m hm
    obtain ⟨n, hn, rfl⟩ := List.mem_map.mp hm
    exact members n hn

/-- What was built with distinct keys becomes a document with distinct keys. -/
theorem Node.IsDistinct.document {n : Node} (h : n.IsDistinct) : n.document.HasDistinctKeys := by
  induction h with
  | value hd => rwa [Node.document]
  | table keys members ih =>
    rw [Node.document]
    exact hasDistinctKeys_documentMembers keys ih
  | tables keys members ih =>
    rw [Node.document, documentTables_eq_map]
    refine .list fun d hd => ?_
    obtain ⟨ms, hms, rfl⟩ := List.mem_map.mp hd
    exact hasDistinctKeys_documentMembers (keys ms hms) (ih ms hms)

theorem AreDistinct.document {ms : Members} (h : AreDistinct ms) :
    HasDistinctKeys (.table (documentMembers ms)) :=
  hasDistinctKeys_documentMembers h.keys fun m hm => (h.members m hm).document

/-- What each step of a fold keeps, the whole fold keeps. -/
theorem foldlM_keeps {α β : Type} {f : β → α → Option β} {P : β → Prop} {l : List α}
    (hstep : ∀ b b', ∀ a ∈ l, P b → f b a = some b' → P b') {b b' : β} (hb : P b)
    (h : l.foldlM f b = some b') : P b' := by
  induction l generalizing b with
  | nil =>
    obtain rfl := Option.some.inj h
    exact hb
  | cons a l ih =>
    rw [List.foldlM_cons] at h
    obtain ⟨next, hnext, h⟩ := Option.bind_eq_some_iff.mp h
    have hrest := fun b b' c hc => hstep b b' c (List.mem_cons_of_mem a hc)
    exact ih hrest (hstep b next a List.mem_cons_self hb hnext) h

theorem hasDistinctKeys_of_tableOf? {pairs : List (List Text × Document)} {d : Document}
    (hpairs : ∀ p ∈ pairs, p.2.HasDistinctKeys) (h : tableOf? pairs = some d) :
    d.HasDistinctKeys := by
  obtain ⟨ms, hms, rfl⟩ := Option.map_eq_some_iff.mp h
  refine (foldlM_keeps (P := AreDistinct) ?_ .nil hms).document
  intro ms ms' p hp
  exact keeps_atLast (keeps_addValue (hpairs p hp)) true p.1 ms ms'

theorem hasDistinctKeys_scalar? {t : Text} {d : Document} (h : scalar? t = some d) :
    d.HasDistinctKeys := by
  rw [scalar?] at h
  split at h
  · obtain rfl := Option.some.inj h
    exact .bool _
  · split at h
    · obtain rfl := Option.some.inj h
      exact .bool _
    · split at h
      · split at h
        · obtain rfl := Option.some.inj h
          exact .int _
        · cases h
      · obtain rfl := Option.some.inj h
        exact .float _
      · obtain rfl := Option.some.inj h
        exact .text _
      · cases h

/-- Values that are read with some fuel hold no key twice. -/
def ValuesDistinct (fuel : Nat) : Prop :=
  ∀ {depth t d rest}, value? depth fuel t = some (d, rest) → d.HasDistinctKeys

/-- Items that are read with some fuel hold no key twice. -/
def ItemsDistinct (fuel : Nat) : Prop :=
  ∀ {depth t ds rest}, items? depth fuel t = some (ds, rest) → ∀ d ∈ ds, d.HasDistinctKeys

/-- The values of pairs that are read with some fuel hold no key twice; it is the table they make
that keeps their own keys apart. -/
def PairsDistinct (fuel : Nat) : Prop :=
  ∀ {depth t ps rest}, pairs? depth fuel t = some (ps, rest) → ∀ p ∈ ps, p.2.HasDistinctKeys

section

variable {fuel : Nat}

theorem valuesDistinct_succ (hitems : ItemsDistinct fuel) (hpairs : PairsDistinct fuel) :
    ValuesDistinct (fuel + 1) := by
  intro depth t d rest h
  unfold value? at h
  split at h
  · obtain ⟨s, -, rfl⟩ := exists_of_map_fst h
    exact .text s
  · obtain ⟨s, -, rfl⟩ := exists_of_map_fst h
    exact .text s
  · split at h
    · cases h
    · obtain ⟨ds, hds, rfl⟩ := exists_of_map_fst h
      exact .list (hitems hds)
  · split at h
    · cases h
    · split at h
      · obtain ⟨rfl, -⟩ := Prod.mk.inj (Option.some.inj h)
        exact .emptyTable
      · obtain ⟨⟨ps, t'⟩, hps, h⟩ := Option.bind_eq_some_iff.mp h
        obtain ⟨e, he, h⟩ := Option.bind_eq_some_iff.mp h
        obtain ⟨rfl, -⟩ := Prod.mk.inj (Option.some.inj h)
        exact hasDistinctKeys_of_tableOf? (hpairs hps) he
  · obtain ⟨e, he, heq⟩ := Option.map_eq_some_iff.mp h
    obtain ⟨rfl, -⟩ := Prod.mk.inj heq
    exact hasDistinctKeys_scalar? he

theorem itemsDistinct_succ (hvalue : ValuesDistinct fuel) (hitems : ItemsDistinct fuel) :
    ItemsDistinct (fuel + 1) := by
  intro depth t ds rest h
  rw [items?] at h
  split at h
  · obtain ⟨rfl, -⟩ := Prod.mk.inj (Option.some.inj h)
    simp
  · obtain ⟨⟨d, t'⟩, hd, h⟩ := Option.bind_eq_some_iff.mp h
    dsimp only at h
    split at h
    · obtain ⟨more, hmore, rfl⟩ := exists_of_map_fst h
      intro e he
      rcases List.mem_cons.mp he with rfl | he
      · exact hvalue hd
      · exact hitems hmore e he
    · obtain ⟨rfl, -⟩ := Prod.mk.inj (Option.some.inj h)
      intro e he
      obtain rfl := List.mem_singleton.mp he
      exact hvalue hd
    · cases h

theorem pairsDistinct_succ (hvalue : ValuesDistinct fuel) (hpairs : PairsDistinct fuel) :
    PairsDistinct (fuel + 1) := by
  intro depth t ps rest h
  rw [pairs?] at h
  obtain ⟨⟨key, t'⟩, -, h⟩ := Option.bind_eq_some_iff.mp h
  dsimp only at h
  split at h
  · obtain ⟨⟨d, t''⟩, hd, h⟩ := Option.bind_eq_some_iff.mp h
    dsimp only at h
    split at h
    · obtain ⟨more, hmore, rfl⟩ := exists_of_map_fst h
      intro q hq
      rcases List.mem_cons.mp hq with rfl | hq
      · exact hvalue hd
      · exact hpairs hmore q hq
    · obtain ⟨rfl, -⟩ := Prod.mk.inj (Option.some.inj h)
      intro q hq
      obtain rfl := List.mem_singleton.mp hq
      exact hvalue hd
    · cases h
  · cases h

end

/-- What the readers of values, items and pairs keep, whatever the fuel. -/
theorem all_distinct (fuel : Nat) :
    ValuesDistinct fuel ∧ ItemsDistinct fuel ∧ PairsDistinct fuel := by
  induction fuel with
  | zero =>
    refine ⟨?_, ?_, ?_⟩
    · intro depth t d rest h
      cases h
    · intro depth t ds rest h
      cases h
    · intro depth t ps rest h
      cases h
  | succ fuel ih =>
    obtain ⟨hvalue, hitems, hpairs⟩ := ih
    exact ⟨valuesDistinct_succ hitems hpairs, itemsDistinct_succ hvalue hitems,
      pairsDistinct_succ hvalue hpairs⟩

/-- A statement whose value, if it gives one, holds no key twice. -/
def Statement.IsDistinct : Statement → Prop
  | .pair _ d => d.HasDistinctKeys
  | .table _ | .item _ => True

theorem isDistinct_of_statement? {t rest : Text} {s : Statement}
    (h : statement? t = some (s, rest)) : s.IsDistinct := by
  unfold statement? at h
  split at h
  all_goals
    obtain ⟨⟨path, t'⟩, -, h⟩ := Option.bind_eq_some_iff.mp h
    dsimp only at h
    split at h
  · obtain ⟨rfl, -⟩ := Prod.mk.inj (Option.some.inj h)
    trivial
  · cases h
  · obtain ⟨rfl, -⟩ := Prod.mk.inj (Option.some.inj h)
    trivial
  · cases h
  · obtain ⟨⟨d, t''⟩, hd, h⟩ := Option.bind_eq_some_iff.mp h
    obtain ⟨rfl, -⟩ := Prod.mk.inj (Option.some.inj h)
    exact (all_distinct _).1 hd
  · cases h

/-- What a line adds to the statements behind it, whether it says something or nothing. -/
theorem isDistinct_of_line {fuel : Nat} {first : Option Statement} {t : Text}
    {found : List Statement}
    (ih : ∀ {t found}, statements? fuel t = some found → ∀ s ∈ found, s.IsDistinct)
    (hfirst : ∀ s ∈ first.toList, s.IsDistinct)
    (h : (match t, newline? t with
      | [], _ => some first.toList
      | _, some t => (statements? fuel t).map fun more => first.toList ++ more
      | _, none => none) = some found) : ∀ s ∈ found, s.IsDistinct := by
  split at h
  · obtain rfl := Option.some.inj h
    exact hfirst
  · obtain ⟨more, hmore, rfl⟩ := Option.map_eq_some_iff.mp h
    intro s hs
    rcases List.mem_append.mp hs with hs | hs
    · exact hfirst s hs
    · exact ih hmore s hs
  · cases h

theorem isDistinct_of_statements? {fuel : Nat} {t : Text} {found : List Statement}
    (h : statements? fuel t = some found) : ∀ s ∈ found, s.IsDistinct := by
  induction fuel generalizing t found with
  | zero => cases h
  | succ fuel ih =>
    rw [statements?] at h
    split at h
    · obtain rfl := Option.some.inj h
      simp
    · dsimp only at h
      split at h
      · obtain ⟨⟨first, t'⟩, hfirst, h⟩ := Option.bind_eq_some_iff.mp h
        obtain ⟨rfl, -⟩ := Prod.mk.inj (Option.some.inj hfirst)
        exact isDistinct_of_line ih (by simp) h
      · obtain ⟨⟨first, t'⟩, hfirst, h⟩ := Option.bind_eq_some_iff.mp h
        obtain ⟨⟨s, rest⟩, hs, heq⟩ := Option.map_eq_some_iff.mp hfirst
        obtain ⟨rfl, -⟩ := Prod.mk.inj heq
        refine isDistinct_of_line ih (fun s' hs' => ?_) h
        obtain rfl := List.mem_singleton.mp hs'
        exact isDistinct_of_statement? hs

/-- What a statement does to the members keeps them distinct. -/
theorem areDistinct_of_add? {b b' : Building} {s : Statement} (hs : s.IsDistinct)
    (hb : AreDistinct b.members) (h : b.add? s = some b') : AreDistinct b'.members := by
  cases s with
  | table path =>
    obtain ⟨ms, hms, rfl⟩ := Option.map_eq_some_iff.mp h
    exact keeps_atLast keeps_openTable false path _ _ hb hms
  | item path =>
    obtain ⟨ms, hms, rfl⟩ := Option.map_eq_some_iff.mp h
    exact keeps_atLast keeps_openItem false path _ _ hb hms
  | pair path d =>
    obtain ⟨ms, hms, rfl⟩ := Option.map_eq_some_iff.mp h
    have hadd : Keeps (atLast true (addValue d) path) := keeps_atLast (keeps_addValue hs) true path
    exact keeps_within hadd false b.current _ _ hb hms

theorem hasDistinctKeys_of_read? {t : Text} {d : Document} (h : read? t = some d) :
    d.HasDistinctKeys := by
  obtain ⟨found, hfound, h⟩ := Option.bind_eq_some_iff.mp h
  obtain ⟨b, hb, h⟩ := Option.bind_eq_some_iff.mp h
  obtain rfl := Option.some.inj h
  have hstatements := isDistinct_of_statements? hfound
  refine (foldlM_keeps (P := fun b => AreDistinct b.members) ?_ .nil hb).document
  intro b b' s hs
  exact areDistinct_of_add? (hstatements s hs)

end Toml

/-! ## 4. YAML -/

namespace Yaml

theorem hasDistinctKeys_of_scalar {s : Scalar} {d : Document} (h : s.document? = some d) :
    d.HasDistinctKeys := by
  cases s with
  | misfit | null =>
    obtain rfl := Option.some.inj h
    exact .null
  | bool b =>
    obtain rfl := Option.some.inj h
    exact .bool b
  | int n =>
    obtain rfl := Option.some.inj h
    exact .int n
  | real t =>
    obtain ⟨x, -, rfl⟩ := Option.map_eq_some_iff.mp h
    exact .float x
  | text t =>
    obtain rfl := Option.some.inj h
    exact .text t

mutual

theorem hasDistinctKeys_of_datum : ∀ {d : Datum} {e : Document}, d.document? = some e →
    e.HasDistinctKeys
  | .scalar s, e, h => by
    rw [Datum.document?] at h
    exact hasDistinctKeys_of_scalar h
  | .list ds, e, h => by
    rw [Datum.document?] at h
    obtain ⟨es, hes, rfl⟩ := Option.map_eq_some_iff.mp h
    exact .list (hasDistinctKeys_of_items hes)
  | .table ms, e, h => by
    rw [Datum.document?] at h
    obtain ⟨es, hes, rfl⟩ := Option.map_eq_some_iff.mp h
    exact hasDistinctKeys_of_members hes

theorem hasDistinctKeys_of_items : ∀ {ds : List Datum} {es : List Document},
    itemDocuments? ds = some es → ∀ e ∈ es, e.HasDistinctKeys
  | [], es, h => by
    rw [itemDocuments?] at h
    obtain rfl := Option.some.inj h
    simp
  | d :: ds, es, h => by
    rw [itemDocuments?] at h
    obtain ⟨e, he, h⟩ := Option.bind_eq_some_iff.mp h
    obtain ⟨more, hmore, h⟩ := Option.bind_eq_some_iff.mp h
    obtain rfl := Option.some.inj h
    intro e' he'
    rcases List.mem_cons.mp he' with rfl | he'
    · exact hasDistinctKeys_of_datum he
    · exact hasDistinctKeys_of_items hmore e' he'

theorem hasDistinctKeys_of_members : ∀ {ms : List (Scalar × Datum)}
    {es : List (Text × Document)}, memberDocuments? ms = some es → HasDistinctKeys (.table es)
  | [], es, h => by
    rw [memberDocuments?] at h
    obtain rfl := Option.some.inj h
    exact .emptyTable
  | (key, d) :: ms, es, h => by
    rw [memberDocuments?] at h
    obtain ⟨k, -, h⟩ := Option.bind_eq_some_iff.mp h
    obtain ⟨e, he, h⟩ := Option.bind_eq_some_iff.mp h
    obtain ⟨more, hmore, h⟩ := Option.bind_eq_some_iff.mp h
    have hdistinct := hasDistinctKeys_of_members hmore
    obtain rfl := Option.some.inj h
    split
    · exact hdistinct
    · rename_i hnew
      obtain ⟨keys, members⟩ := hasDistinctKeys_table_iff.mp hdistinct
      have hk : k ∉ more.map Prod.fst := not_mem_of_lookup (Option.not_isSome_iff_eq_none.mp hnew)
      refine .table (List.nodup_cons.mpr ⟨hk, keys⟩) fun m hm => ?_
      rcases List.mem_cons.mp hm with rfl | hm
      · exact hasDistinctKeys_of_datum he
      · exact members m hm

end

theorem hasDistinctKeys_of_read? {t : Text} {d : Document} (h : read? t = some d) :
    d.HasDistinctKeys := by
  obtain ⟨sources, -, h⟩ := Option.bind_eq_some_iff.mp h
  split at h
  · obtain rfl := Option.some.inj h
    exact .emptyTable
  · obtain ⟨⟨n, rest⟩, -, h⟩ := Option.bind_eq_some_iff.mp h
    dsimp only at h
    split at h
    · obtain ⟨⟨datum, after⟩, -, h⟩ := Option.bind_eq_some_iff.mp h
      exact hasDistinctKeys_of_datum h
    · cases h
  · cases h

end Yaml

end Document

/-! ## 5. Settings files -/

/-- No table that a settings file says holds a key twice. -/
theorem SettingsFormat.hasDistinctKeys_of_read? {f : SettingsFormat} {t : Text} {d : Document}
    (h : f.read? t = some d) : d.HasDistinctKeys := by
  cases f with
  | toml => exact Document.Toml.hasDistinctKeys_of_read? h
  | json => exact Document.Json.hasDistinctKeys_of_read? h
  | yaml => exact Document.Yaml.hasDistinctKeys_of_read? h

namespace Settings

theorem nodup_membersOf {d : Document} (h : d.HasDistinctKeys) :
    ((membersOf d).map Prod.fst).Nodup := by
  cases h with
  | table keys members => exact keys
  | _ => exact List.nodup_nil

/-- A settings file that is read has plain keys as soon as its keys are names in small letters. -/
theorem hasPlainKeys_of_read? {f : SettingsFormat} {t : Text} {d : Document}
    (h : f.read? t = some d) (hsmall : ∀ m ∈ membersOf d, Text.lower m.1 = m.1)
    (hnames : ∀ m ∈ membersOf d, KeyPath.ofKey m.1 = [.name m.1])
    (hinner : ∀ m ∈ membersOf d, ∀ n ∈ membersOf m.2, Text.lower n.1 = n.1) :
    HasPlainKeys d := by
  have hd := SettingsFormat.hasDistinctKeys_of_read? h
  refine ⟨nodup_membersOf hd, hsmall, hnames, fun m hm => ?_, hinner⟩
  cases hd with
  | table keys members => exact nodup_membersOf (members m hm)
  | _ => cases hm

end Settings

end IsolatedSite
