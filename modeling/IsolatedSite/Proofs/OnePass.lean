/-
# Replacing one after the other, and all at once

A pattern is a text with variables.  Read once from left to right, the longest name that fits
taken at each place, it falls into pieces (`Pattern.pieces`), and `Pattern.render` puts a value in
for each name.  What is put in is not read again.

Replacing name after name in the growing text reads it again and again, what was put in included.
`foldl_replaceAll` says when this makes no difference (`Pattern.IsSettled`): no value that is read
again holds the sign that names begin with, and no value completes the beginning of a name that
stands in front of it.  It is proved by a step lemma (`replaceAll_render`: a replacement puts the
value in at the places of its own name, and nowhere else) and an induction over the table.
-/
import IsolatedSite.Proofs.Members
import Mathlib.Data.List.MinMax

namespace IsolatedSite

/-! ## 1. Where a text is left alone -/

section Replacing

variable {α : Type} [DecidableEq α] {old new : List α}

/-- What belongs to an occurrence is skipped. -/
theorem replaceFrom_length (used rest : List α) :
    replaceFrom old new used.length (used ++ rest) = replaceFrom old new 0 rest := by
  induction used with
  | nil => rfl
  | cons x used ih => exact ih

theorem replaceFrom_occurrence (hold : old ≠ []) (rest : List α) :
    replaceFrom old new 0 (old ++ rest) = new ++ replaceFrom old new 0 rest := by
  cases old with
  | nil => exact absurd rfl hold
  | cons x old =>
    have hfits : (x :: old).isPrefixOf (x :: (old ++ rest)) = true :=
      List.isPrefixOf_iff_prefix.mpr (List.prefix_append (x :: old) rest)
    rw [List.cons_append, replaceFrom, if_pos hfits]
    congr 1
    exact replaceFrom_length old rest

/-- A text in which no occurrence begins stays as it is, also where more follows. -/
theorem replaceFrom_append {t : List α} (rest : List α)
    (h : ∀ u, u ≠ [] → u <:+ t → ¬ old <+: u ++ rest) :
    replaceFrom old new 0 (t ++ rest) = t ++ replaceFrom old new 0 rest := by
  induction t with
  | nil => rfl
  | cons x t ih =>
    have hno : ¬ old.isPrefixOf (x :: (t ++ rest)) = true := by
      intro hfits
      exact h (x :: t) (by simp) List.suffix_rfl (List.isPrefixOf_iff_prefix.mp hfits)
    rw [List.cons_append, replaceFrom, if_neg hno, List.cons_append]
    congr 1
    refine ih fun u hne hu => h u hne ?_
    exact hu.trans (List.suffix_cons x t)

/-- What is put in cannot help to complete a text that its first element does not occur in. -/
theorem prefix_of_prefix_replaceFrom {c : α} {w t : List α} (hc : c ∉ t) (xs : List α)
    (h : t <+: replaceFrom old (c :: w) 0 xs) : t <+: xs := by
  induction xs generalizing t with
  | nil => exact h
  | cons x xs ih =>
    cases t with
    | nil => exact List.nil_prefix
    | cons y t =>
      rw [replaceFrom] at h
      split at h
      · obtain ⟨rfl, -⟩ := List.cons_prefix_cons.mp h
        exact absurd List.mem_cons_self hc
      · obtain ⟨rfl, htail⟩ := List.cons_prefix_cons.mp h
        refine List.cons_prefix_cons.mpr ⟨rfl, ih ?_ htail⟩
        exact fun hm => hc (List.mem_cons_of_mem _ hm)

omit [DecidableEq α] in
theorem infix_of_infix_append {sign : α} {t w rest : List α} (hw : sign ∉ w)
    (h : sign :: t <:+: w ++ rest) : sign :: t <:+: rest := by
  induction w with
  | nil => exact h
  | cons x w ih =>
    rcases List.infix_cons_iff.mp h with h | h
    · obtain ⟨rfl, -⟩ := List.cons_prefix_cons.mp h
      exact absurd List.mem_cons_self hw
    · exact ih (fun hm => hw (List.mem_cons_of_mem _ hm)) h

/-- **What is there after a replacement was there before**, at a place that was not replaced: this
holds of a text that what is put in can neither begin nor complete. -/
theorem exists_of_infix_replaceFrom {sign c : α} {t w : List α} (hsign : sign ∉ c :: w)
    (hc : c ∉ t) (skip : Nat) (xs : List α)
    (h : sign :: t <:+: replaceFrom old (c :: w) skip xs) :
    ∃ ys, ys <:+ xs ∧ sign :: t <+: ys ∧ ¬ old <+: ys := by
  induction xs generalizing skip with
  | nil =>
    rw [replaceFrom] at h
    exact absurd (List.infix_nil.mp h) (List.cons_ne_nil _ _)
  | cons x xs ih =>
    have hlater : ∀ skip, sign :: t <:+: replaceFrom old (c :: w) skip xs →
        ∃ ys, ys <:+ x :: xs ∧ sign :: t <+: ys ∧ ¬ old <+: ys := by
      intro skip hin
      obtain ⟨ys, hys, hfits, hno⟩ := ih skip hin
      exact ⟨ys, hys.trans (List.suffix_cons x xs), hfits, hno⟩
    cases skip with
    | succ skip => exact hlater skip h
    | zero =>
      rw [replaceFrom] at h
      split at h
      · exact hlater _ (infix_of_infix_append hsign h)
      · rename_i hold
        rcases List.infix_cons_iff.mp h with h | h
        · obtain ⟨rfl, htail⟩ := List.cons_prefix_cons.mp h
          refine ⟨sign :: xs, List.suffix_rfl, ?_, fun hp => hold ?_⟩
          · exact List.cons_prefix_cons.mpr ⟨rfl, prefix_of_prefix_replaceFrom hc xs htail⟩
          · exact List.isPrefixOf_iff_prefix.mpr hp
        · exact hlater 0 h

/-- A text that is absent stays absent. -/
theorem not_infix_replaceAll {sign : α} {t xs : List α} (hsign : sign ∉ new)
    (hnew : ∃ c ∈ new.head?, c ∉ t) (h : ¬ sign :: t <:+: xs) :
    ¬ sign :: t <:+: replaceAll old new xs := by
  intro hin
  obtain ⟨c, hhead, hc⟩ := hnew
  obtain ⟨w, rfl⟩ := List.head?_eq_some_iff.mp hhead
  obtain ⟨ys, hys, hfits, -⟩ := exists_of_infix_replaceFrom hsign hc 0 xs hin
  exact h (hfits.isInfix.trans hys.isInfix)

/-- A text that was replaced is absent. -/
theorem not_infix_replaceAll_self {sign : α} {t : List α} (hsign : sign ∉ new)
    (hnew : ∃ c ∈ new.head?, c ∉ t) (xs : List α) :
    ¬ sign :: t <:+: replaceAll (sign :: t) new xs := by
  intro hin
  obtain ⟨c, hhead, hc⟩ := hnew
  obtain ⟨w, rfl⟩ := List.head?_eq_some_iff.mp hhead
  obtain ⟨ys, -, hfits, hno⟩ := exists_of_infix_replaceFrom hsign hc 0 xs hin
  exact hno hfits

/-- A text that is absent stays absent through a whole table. -/
theorem not_infix_foldl_replaceAll {sign : α} {t : List α} {vars : List (List α × List α)}
    (hvars : ∀ v ∈ vars, sign ∉ v.2 ∧ ∃ c ∈ v.2.head?, c ∉ t) {xs : List α}
    (h : ¬ sign :: t <:+: xs) :
    ¬ sign :: t <:+: vars.foldl (fun line v => replaceAll v.1 v.2 line) xs := by
  induction vars generalizing xs with
  | nil => exact h
  | cons v vars ih =>
    obtain ⟨hsign, hnew⟩ := hvars v List.mem_cons_self
    exact ih (fun u hu => hvars u (List.mem_cons_of_mem _ hu)) (not_infix_replaceAll hsign hnew h)

end Replacing

namespace Pattern

/-! ## 2. The pieces of a pattern -/

/-- A piece of a pattern: a character that stands for itself, or the name of a variable. -/
inductive Piece where
  | char (c : Char)
  | name (n : Text)
  deriving DecidableEq, Repr

/-- How a piece is written in the pattern. -/
def Piece.source : Piece → Text
  | .char c => [c]
  | .name n => n

/-- The name at the beginning of a text: the longest one that fits. -/
def nameAt? (names : List Text) (t : Text) : Option Text :=
  (names.filter fun n => n.isPrefixOf t).argmax List.length

/-- One pass over a text; `skip` characters belong to a name that was already found. -/
def piecesFrom (names : List Text) : (skip : Nat) → Text → List Piece
  | _, [] => []
  | skip + 1, _ :: t => piecesFrom names skip t
  | 0, c :: t => match nameAt? names (c :: t) with
    | some n => .name n :: piecesFrom names (n.length - 1) t
    | none => .char c :: piecesFrom names 0 t

/-- The pieces of a pattern. -/
def pieces (names : List Text) (p : Text) : List Piece := piecesFrom names 0 p

/-- The text of a piece, a value standing for each name. -/
def Piece.text (value : Text → Text) : Piece → Text
  | .char c => [c]
  | .name n => value n

/-- The line of a pattern: the values in the places of their names, everything else as it is. -/
def render (value : Text → Text) (ps : List Piece) : Text := ps.flatMap (Piece.text value)

/-- The pattern that pieces are written as. -/
def source (ps : List Piece) : Text := ps.flatMap Piece.source

@[simp] theorem render_cons (value : Text → Text) (x : Piece) (ps : List Piece) :
    render value (x :: ps) = x.text value ++ render value ps := List.flatMap_cons

@[simp] theorem render_append (value : Text → Text) (ps qs : List Piece) :
    render value (ps ++ qs) = render value ps ++ render value qs := List.flatMap_append

@[simp] theorem render_chars (value : Text → Text) (t : Text) :
    render value (t.map Piece.char) = t := by
  induction t with
  | nil => rfl
  | cons c t ih => rw [List.map_cons, render_cons, ih]; rfl

@[simp] theorem source_cons (x : Piece) (ps : List Piece) :
    source (x :: ps) = x.source ++ source ps := List.flatMap_cons

@[simp] theorem source_append (ps qs : List Piece) :
    source (ps ++ qs) = source ps ++ source qs := List.flatMap_append

@[simp] theorem source_chars (t : Text) : source (t.map Piece.char) = t := render_chars id t

/-! ## 3. Reading -/

theorem nameAt?_mem {names : List Text} {t n : Text} (h : nameAt? names t = some n) :
    n ∈ names ∧ n <+: t := by
  obtain ⟨hmem, hfits⟩ := List.mem_filter.mp (List.argmax_mem h)
  exact ⟨hmem, List.isPrefixOf_iff_prefix.mp hfits⟩

theorem length_le_of_nameAt? {names : List Text} {t n m : Text} (h : nameAt? names t = some n)
    (hm : m ∈ names) (hfits : m <+: t) : m.length ≤ n.length := by
  have hmem : m ∈ names.filter fun n => n.isPrefixOf t :=
    List.mem_filter.mpr ⟨hm, List.isPrefixOf_iff_prefix.mpr hfits⟩
  exact List.le_of_mem_argmax hmem h

theorem nameAt?_eq_none {names : List Text} {t : Text} :
    nameAt? names t = none ↔ ∀ n ∈ names, ¬ n <+: t := by
  rw [nameAt?, List.argmax_eq_none, List.filter_eq_nil_iff]
  refine forall₂_congr fun n _ => ?_
  rw [List.isPrefixOf_iff_prefix]

/-- Pieces as a single pass finds them: where a character stands no name fits, and where a name
stands no longer one does. -/
inductive IsReading (names : List Text) : List Piece → Prop
  | nil : IsReading names []
  | char {c : Char} {ps : List Piece} (hno : ∀ n ∈ names, ¬ n <+: c :: source ps)
      (hps : IsReading names ps) : IsReading names (.char c :: ps)
  | name {n : Text} {ps : List Piece} (hn : n ∈ names)
      (hlongest : ∀ m ∈ names, m <+: n ++ source ps → m.length ≤ n.length)
      (hps : IsReading names ps) : IsReading names (.name n :: ps)

/-- Nothing is lost or added when a text is read. -/
theorem source_piecesFrom {names : List Text} (hnames : ∀ n ∈ names, n ≠ []) (skip : Nat)
    (t : Text) : source (piecesFrom names skip t) = t.drop skip := by
  induction t generalizing skip with
  | nil => cases skip <;> rfl
  | cons c t ih =>
    cases skip with
    | succ skip => exact ih skip
    | zero =>
      rw [piecesFrom, List.drop_zero]
      cases hat : nameAt? names (c :: t) with
      | none => rw [source_cons, ih 0]; rfl
      | some n =>
        obtain ⟨hmem, rest, hrest⟩ := nameAt?_mem hat
        obtain ⟨d, n, rfl⟩ := List.exists_cons_of_ne_nil (hnames n hmem)
        rw [List.cons_append] at hrest
        obtain ⟨rfl, ht⟩ := List.cons_eq_cons.mp hrest
        rw [source_cons, ih, List.length_cons, Nat.add_sub_cancel, ← ht, List.drop_left]
        rfl

@[simp] theorem source_pieces {names : List Text} (hnames : ∀ n ∈ names, n ≠ []) (p : Text) :
    source (pieces names p) = p := source_piecesFrom hnames 0 p

theorem isReading_piecesFrom {names : List Text} (hnames : ∀ n ∈ names, n ≠ []) (skip : Nat)
    (t : Text) : IsReading names (piecesFrom names skip t) := by
  induction t generalizing skip with
  | nil => cases skip <;> exact .nil
  | cons c t ih =>
    cases skip with
    | succ skip => exact ih skip
    | zero =>
      have hsource := source_piecesFrom hnames 0 (c :: t)
      rw [piecesFrom] at hsource ⊢
      cases hat : nameAt? names (c :: t) with
      | none =>
        refine .char (fun n hn => ?_) (ih 0)
        rw [source_piecesFrom hnames, List.drop_zero]
        exact nameAt?_eq_none.mp hat n hn
      | some n =>
        rw [hat] at hsource
        refine .name (nameAt?_mem hat).1 (fun m hm hfits => ?_) (ih _)
        refine length_le_of_nameAt? hat hm ?_
        rwa [← List.drop_zero (l := c :: t), ← hsource, source_cons]

theorem isReading_pieces {names : List Text} (hnames : ∀ n ∈ names, n ≠ []) (p : Text) :
    IsReading names (pieces names p) := isReading_piecesFrom hnames 0 p

/-- What is read behind some pieces is read as if it stood alone. -/
theorem IsReading.of_append {names : List Text} {ps qs : List Piece}
    (h : IsReading names (ps ++ qs)) : IsReading names qs := by
  induction ps with
  | nil => exact h
  | cons x ps ih =>
    cases h with
    | char _ hps => exact ih hps
    | name _ _ hps => exact ih hps

theorem IsReading.mem {names : List Text} {ps : List Piece} (h : IsReading names ps) {n : Text}
    (hn : Piece.name n ∈ ps) : n ∈ names := by
  obtain ⟨before, after, rfl⟩ := List.append_of_mem hn
  cases h.of_append with
  | name hmem _ _ => exact hmem

/-! ## 4. Tables of names -/

/-- What begins a text of two parts begins the first part, or goes on with the first character of
the second. -/
theorem prefix_or_concat_prefix {a b : Text} (h : n <+: a ++ b) :
    n <+: a ∨ ∃ c ∈ b.head?, a ++ [c] <+: n := by
  rcases List.prefix_or_prefix_of_prefix h (List.prefix_append a b) with ha | ⟨r, rfl⟩
  · exact .inl ha
  · cases r with
    | nil => exact .inl (by simp)
    | cons c r =>
      obtain ⟨rest, rfl⟩ := (List.prefix_append_right_inj a).mp h
      exact .inr ⟨c, rfl, r, by simp⟩

/-- Names that can be replaced one after the other: each begins with a sign that occurs in it
nowhere else, and none begins a name that stands behind it. -/
structure AreNames (sign : Char) (names : List Text) : Prop where
  signed : ∀ n ∈ names, ∃ w, n = sign :: w ∧ sign ∉ w
  ordered : names.Pairwise fun n m => ¬ n <+: m

namespace AreNames

variable {sign : Char} {names : List Text}

theorem ne_nil (h : AreNames sign names) : ∀ n ∈ names, n ≠ [] := by
  intro n hn
  obtain ⟨w, rfl, -⟩ := h.signed n hn
  exact List.cons_ne_nil _ _

/-- A name fits at its sign only. -/
theorem not_prefix_of_suffix (h : AreNames sign names) {n : Text} (hn : n ∈ names)
    {t u rest : Text} (ht : sign ∉ t) (hne : u ≠ []) (hu : u <:+ t) : ¬ n <+: u ++ rest := by
  intro hfits
  obtain ⟨w, rfl, -⟩ := h.signed n hn
  obtain ⟨c, u, rfl⟩ := List.exists_cons_of_ne_nil hne
  obtain ⟨rfl, -⟩ := List.cons_prefix_cons.mp hfits
  exact ht (hu.subset List.mem_cons_self)

/-- A name that is not at its end yet does not go on with the sign. -/
theorem not_prefix_sign (h : AreNames sign names) {n : Text} (hn : n ∈ names) {t : Text}
    (hne : t ≠ []) : ¬ t ++ [sign] <+: n := by
  rintro ⟨rest, hrest⟩
  obtain ⟨w, rfl, hw⟩ := h.signed n hn
  obtain ⟨c, t, rfl⟩ := List.exists_cons_of_ne_nil hne
  obtain ⟨-, rfl⟩ := List.cons_eq_cons.mp hrest
  exact hw (by simp)

/-- A sign is read on its own: no name reaches over it. -/
theorem exists_pieces_sign (h : AreNames sign names) (a b : Text) :
    ∃ before, pieces names (a ++ sign :: b) = before ++ pieces names (sign :: b) := by
  suffices hskip : ∀ skip, skip ≤ a.length →
      ∃ before, piecesFrom names skip (a ++ sign :: b) = before ++ pieces names (sign :: b) from
    hskip 0 (Nat.zero_le _)
  induction a with
  | nil =>
    intro skip hle
    obtain rfl := Nat.le_zero.mp hle
    exact ⟨[], rfl⟩
  | cons c a ih =>
    intro skip hle
    cases skip with
    | succ skip => exact ih skip (Nat.le_of_succ_le_succ hle)
    | zero =>
      rw [List.cons_append, piecesFrom]
      cases hat : nameAt? names (c :: (a ++ sign :: b)) with
      | none =>
        obtain ⟨before, hbefore⟩ := ih 0 (Nat.zero_le _)
        exact ⟨.char c :: before, by rw [hbefore, List.cons_append]⟩
      | some n =>
        obtain ⟨hmem, hfits⟩ := nameAt?_mem hat
        obtain ⟨w, rfl, hw⟩ := h.signed n hmem
        have hlength : w.length ≤ a.length := by
          rcases prefix_or_concat_prefix (List.cons_prefix_cons.mp hfits).2 with hin | ⟨d, hd, hin⟩
          · exact hin.length_le
          · obtain rfl : sign = d := by simpa using hd
            exact absurd (hin.subset (by simp)) hw
        obtain ⟨before, hbefore⟩ := ih w.length hlength
        refine ⟨.name (sign :: w) :: before, ?_⟩
        dsimp only
        rw [List.length_cons, Nat.add_sub_cancel, hbefore, List.cons_append]

/-- No name begins one that stands behind it in the table. -/
theorem not_prefix_of_split (h : AreNames sign names) {l₁ l₂ : List Text} {n m : Text}
    (hsplit : names = l₁ ++ n :: l₂) (hm : m ∈ l₂) : ¬ n <+: m := by
  have hordered := h.ordered
  rw [hsplit, List.pairwise_append, List.pairwise_cons] at hordered
  exact hordered.2.1.1 m hm

/-- No name stands in the table twice. -/
theorem not_mem_of_split (h : AreNames sign names) {l₁ l₂ : List Text} {n : Text}
    (hsplit : names = l₁ ++ n :: l₂) : n ∉ l₁ := by
  intro hn
  obtain ⟨k₁, k₂, rfl⟩ := List.append_of_mem hn
  have hsplit' : names = k₁ ++ n :: (k₂ ++ n :: l₂) := by simpa using hsplit
  exact h.not_prefix_of_split hsplit' (by simp) List.prefix_rfl

end AreNames

/-! ## 5. One replacement -/

/-- The value that stands for a name once a part of the table is put in: a name of which the
table does not speak still stands there itself. -/
def valueIn (vars : List (Text × Text)) (n : Text) : Text := (vars.lookup n).getD n

/-- Pieces and a table for which the order of the replacements is of no account.  For each
variable behind which the table still has others: its value holds no sign; and if the piece `x`
and the characters `t` in front of it are the beginning of one of these others, then the value has
a first character, and it is not the one with which that name goes on. -/
def IsSettled (sign : Char) (vars : List (Text × Text)) (ps : List Piece) : Prop :=
  ∀ done v w todo, vars = done ++ (v, w) :: todo → Piece.name v ∈ ps → todo ≠ [] →
    sign ∉ w ∧
    ∀ before x t after, ps = before ++ x :: (t.map Piece.char ++ Piece.name v :: after) →
      ∀ n ∈ todo.map Prod.fst, x.source ++ t <+: n →
        ∃ c ∈ w.head?, ¬ x.source ++ t ++ [c] <+: n

section OneReplacement

variable {sign : Char} {names : List Text} {vars done todo : List (Text × Text)} {n w : Text}
  {ps : List Piece}

theorem valueIn_of_not_mem {m : Text} (h : m ∉ done.map Prod.fst) : valueIn done m = m := by
  rw [valueIn, lookup_of_not_mem h, Option.getD_none]

/-- A name whose value was put in stands in the table in front of the one that is next. -/
theorem exists_earlier (hvars : vars = done ++ (n, w) :: todo) {m : Text}
    (h : m ∈ done.map Prod.fst) :
    ∃ l₁ l₂, vars = l₁ ++ (m, valueIn done m) :: l₂ ∧ n ∈ l₂.map Prod.fst := by
  cases hat : done.lookup m with
  | none =>
    obtain ⟨v, hv, rfl⟩ := List.mem_map.mp h
    have hne := List.lookup_eq_none_iff.mp hat v hv
    simp at hne
  | some u =>
    obtain ⟨l₁, l₂, hdone, -⟩ := List.lookup_eq_some_iff.mp hat
    refine ⟨l₁, l₂ ++ (n, w) :: todo, ?_, by simp⟩
    rw [hvars, valueIn, hat, Option.getD_some, hdone]
    simp

/-- Putting one more value in changes nothing in the places of other names. -/
theorem valueIn_concat_of_ne {m : Text} (h : m ≠ n) :
    valueIn (done ++ [(n, w)]) m = valueIn done m := by
  have hother : [(n, w)].lookup m = none := lookup_cons_of_ne h
  rw [valueIn, List.lookup_append, hother, Option.or_none, valueIn]

theorem valueIn_concat_self (h : n ∉ done.map Prod.fst) : valueIn (done ++ [(n, w)]) n = w := by
  rw [valueIn, List.lookup_append, lookup_of_not_mem h, Option.none_or, List.lookup_cons,
    beq_self_eq_true]
  rfl

theorem source_ne_nil (h : AreNames sign names) (hps : IsReading names ps) {x : Piece}
    (hx : x ∈ ps) : x.source ≠ [] := by
  cases x with
  | char c => exact List.cons_ne_nil _ _
  | name m => exact h.ne_nil m (hps.mem hx)

/-- **A name that fits in the line fits in the pattern**, behind a piece that is still as it was
written.  The induction goes along the pieces behind it: characters stand in both, a name that is
still there stops the fit by its sign, and a value does so by `IsSettled`. -/
theorem prefix_source_of_prefix_render (h : AreNames sign (vars.map Prod.fst))
    (hvars : vars = done ++ (n, w) :: todo) (hps : IsReading (vars.map Prod.fst) ps)
    (hsettled : IsSettled sign vars ps) {before rest : List Piece} {x : Piece} {t : Text}
    (hplace : ps = before ++ x :: (t.map Piece.char ++ rest))
    (hfits : n <+: x.source ++ t ++ render (valueIn done) rest) :
    n <+: x.source ++ t ++ source rest := by
  have hn : n ∈ vars.map Prod.fst := by simp [hvars]
  induction rest generalizing t with
  | nil => exact hfits
  | cons y rest ih =>
    cases y with
    | char c =>
      have hnext := @ih (t ++ [c]) (by simpa using hplace) (by simpa [Piece.text] using hfits)
      simpa [Piece.source] using hnext
    | name v =>
      have hx : x.source ++ t ≠ [] := by
        have := source_ne_nil h hps (x := x) (by simp [hplace])
        simp [this]
      have hv : Piece.name v ∈ ps := by simp [hplace]
      rw [render_cons] at hfits
      rcases prefix_or_concat_prefix hfits with hin | ⟨c, hc, hgoes⟩
      · exact hin.trans (List.prefix_append _ _)
      · exfalso
        by_cases hdone : v ∈ done.map Prod.fst
        · obtain ⟨l₁, l₂, hsplit, hlater⟩ := exists_earlier hvars hdone
          obtain ⟨-, hstop⟩ := hsettled l₁ v _ l₂ hsplit hv (by rintro rfl; simp at hlater)
          obtain ⟨d, hd, hno⟩ := hstop before x t rest hplace n hlater
            ((List.prefix_append _ _).trans hgoes)
          have hhead : c = d := by
            rw [Option.mem_def] at hc hd
            rw [Piece.text, List.head?_append, hd] at hc
            exact (Option.some.inj hc).symm
          exact hno (hhead ▸ hgoes)
        · obtain ⟨u, hu, -⟩ := h.signed v (hps.mem hv)
          rw [Piece.text, valueIn_of_not_mem hdone, hu] at hc
          obtain rfl : sign = c := by simpa using hc
          exact h.not_prefix_sign hn hx hgoes

/-- No other piece that is still as it was written begins an occurrence of the name. -/
theorem not_prefix_render (h : AreNames sign (vars.map Prod.fst))
    (hvars : vars = done ++ (n, w) :: todo) (hps : IsReading (vars.map Prod.fst) ps)
    (hsettled : IsSettled sign vars ps) {before rest : List Piece} {x : Piece}
    (hplace : ps = before ++ x :: rest) (hx : ∀ m, x = .name m → m ≠ n ∧ m ∉ done.map Prod.fst) :
    ¬ n <+: x.source ++ render (valueIn done) rest := by
  intro hfits
  have hn : n ∈ vars.map Prod.fst := by simp [hvars]
  have hsource : n <+: x.source ++ source rest := by
    have := prefix_source_of_prefix_render (t := []) h hvars hps hsettled hplace
      (by simpa using hfits)
    simpa using this
  have hread : IsReading (vars.map Prod.fst) (x :: rest) := (hplace ▸ hps).of_append
  cases hread with
  | char hno _ => exact hno n hn hsource
  | @name m _ hm hlongest _ =>
    obtain ⟨hne, hdone⟩ := hx m rfl
    have hprefix : n <+: m :=
      List.prefix_of_prefix_length_le hsource (List.prefix_append _ _) (hlongest n hn hsource)
    have htodo : m ∈ todo.map Prod.fst := by
      have : m ∈ done.map Prod.fst ∨ m = n ∨ m ∈ todo.map Prod.fst := by simpa [hvars] using hm
      tauto
    have hsplit : vars.map Prod.fst = done.map Prod.fst ++ n :: todo.map Prod.fst := by
      simp [hvars]
    exact h.not_prefix_of_split hsplit htodo hprefix

/-- **One replacement** puts the value in the places of its own name, and nowhere else.  The
induction goes along the pieces; `before` are those that were passed. -/
theorem replaceAll_render (h : AreNames sign (vars.map Prod.fst))
    (hvars : vars = done ++ (n, w) :: todo) (hps : IsReading (vars.map Prod.fst) ps)
    (hsettled : IsSettled sign vars ps) :
    replaceAll n w (render (valueIn done) ps) = render (valueIn (done ++ [(n, w)])) ps := by
  have hn : n ∈ vars.map Prod.fst := by simp [hvars]
  have hsplit : vars.map Prod.fst = done.map Prod.fst ++ n :: todo.map Prod.fst := by
    simp [hvars]
  have hfresh : n ∉ done.map Prod.fst := h.not_mem_of_split hsplit
  have hrest : ∀ rest before, ps = before ++ rest →
      replaceFrom n w 0 (render (valueIn done) rest) =
        render (valueIn (done ++ [(n, w)])) rest := by
    intro rest
    induction rest with
    | nil => exact fun _ _ => rfl
    | cons x rest ih =>
      intro before hplace
      have hnext := ih (before ++ [x]) (by simpa using hplace)
      rw [render_cons, render_cons, ← hnext]
      cases x with
      | char c =>
        have hno := not_prefix_render h hvars hps hsettled hplace (fun m hm => by cases hm)
        refine replaceFrom_append _ fun u hne hu => ?_
        obtain rfl : u = [c] := by
          rcases List.suffix_cons_iff.mp hu with hu | hu
          · exact hu
          · exact absurd (List.suffix_nil.mp hu) hne
        exact hno
      | name m =>
        have hm : m ∈ vars.map Prod.fst := hps.mem (by simp [hplace])
        by_cases hmn : m = n
        · subst hmn
          rw [Piece.text, Piece.text, valueIn_of_not_mem hfresh, valueIn_concat_self hfresh]
          exact replaceFrom_occurrence (h.ne_nil m hm) _
        · rw [Piece.text, Piece.text, valueIn_concat_of_ne hmn]
          refine replaceFrom_append _ fun u hne hu => ?_
          by_cases hdone : m ∈ done.map Prod.fst
          · -- a value that is put in holds no sign
            obtain ⟨l₁, l₂, hsplit, hlater⟩ := exists_earlier hvars hdone
            obtain ⟨hsign, -⟩ := hsettled l₁ m _ l₂ hsplit (by simp [hplace])
              (by rintro rfl; simp at hlater)
            exact h.not_prefix_of_suffix hn hsign hne hu
          · -- a name that is still there holds one at its beginning
            rw [valueIn_of_not_mem hdone] at hu
            obtain ⟨v, rfl, hv⟩ := h.signed m hm
            rcases List.suffix_cons_iff.mp hu with rfl | hu
            · have hno := not_prefix_render h hvars hps hsettled hplace (fun k hk => by
                cases hk
                exact ⟨hmn, hdone⟩)
              exact hno
            · exact h.not_prefix_of_suffix hn hv hne hu
  exact hrest ps [] rfl

end OneReplacement

/-! ## 6. All replacements -/

/-- **All at once.**  On settled pieces the replacements of a whole table, one after the other,
give the line of a single pass. -/
theorem foldl_replaceAll {sign : Char} {vars : List (Text × Text)} {p : Text}
    (h : AreNames sign (vars.map Prod.fst))
    (hsettled : IsSettled sign vars (pieces (vars.map Prod.fst) p)) :
    vars.foldl (fun line v => replaceAll v.1 v.2 line) p =
      render (valueIn vars) (pieces (vars.map Prod.fst) p) := by
  have hps := isReading_pieces h.ne_nil p
  have hrun : ∀ todo done, vars = done ++ todo →
      todo.foldl (fun line v => replaceAll v.1 v.2 line)
        (render (valueIn done) (pieces (vars.map Prod.fst) p)) =
      render (valueIn vars) (pieces (vars.map Prod.fst) p) := by
    intro todo
    induction todo with
    | nil =>
      intro done hvars
      rw [hvars, List.append_nil]
      rfl
    | cons v todo ih =>
      intro done hvars
      rw [List.foldl_cons, replaceAll_render h hvars hps hsettled]
      exact ih (done ++ [v]) (by simpa using hvars)
  have hstart : render (valueIn []) (pieces (vars.map Prod.fst) p) = p :=
    source_pieces h.ne_nil p
  have hall := hrun vars [] rfl
  rwa [hstart] at hall

end Pattern

end IsolatedSite
