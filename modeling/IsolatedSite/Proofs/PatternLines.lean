/-
# Lines of patterns

A pattern is meant to be read once: each variable, the longest name that fits, stands for its
value, and everything else for itself (`AccessEntry.onePass`).  The line that is written comes
about otherwise, variable after variable in the growing line.  `patternLine_onePass` says when the
two agree.

* For one entry they do if no value completes a name (`AccessEntry.IsSettled`).
* For all entries they do exactly if the pattern has none of the variables whose value a client
  chooses and whose place is read again (`openVariables`), and no `$time_iso86` or `$time_iso860`
  in front of a `$time_local`: the first day of a month, or the tenth, makes `$time_iso8601` of it.

The value of `$http_user_agent` is a client's too, but no variable is replaced after it.
-/
import IsolatedSite.AccessLog
import IsolatedSite.Proofs.Durations
import IsolatedSite.Proofs.OnePass
import IsolatedSite.Proofs.TimeTexts
import Mathlib.Data.List.Infix

namespace IsolatedSite.AccessEntry

open IsolatedSite.Pattern

/-! ## 1. The variables -/

/-- The names of the variables, in the order in which they are replaced. -/
def variableNames : List Text :=
  ["$remote_addr".toList, "$time_local".toList, "$time_iso8601".toList, "$request_time".toList,
   "$request_method".toList, "$request_uri".toList, "$request".toList, "$status".toList,
   "$body_bytes_sent".toList, "$http_referer".toList, "$http_user_agent".toList]

theorem map_patternValues (e : AccessEntry) : e.patternValues.map Prod.fst = variableNames := rfl

/-- Variables whose values come from outside and are read again. -/
def openVariables : List Text :=
  ["$remote_addr".toList, "$request_method".toList, "$request_uri".toList, "$request".toList,
   "$http_referer".toList]

/-- The value of a variable; a text that names no variable is itself. -/
def valueOf (e : AccessEntry) (n : Text) : Text := valueIn e.patternValues n

/-- **The line of a pattern that is read once**, from left to right. -/
def onePass (p : Text) (e : AccessEntry) : Text :=
  render e.valueOf (pieces variableNames p)

/-- An entry none of whose values completes a variable in a pattern. -/
def IsSettled (p : Text) (e : AccessEntry) : Prop :=
  Pattern.IsSettled '$' e.patternValues (pieces variableNames p)

theorem areNames : AreNames '$' variableNames where
  signed := by
    intro n hn
    simp only [variableNames, List.mem_cons, List.not_mem_nil, or_false] at hn
    rcases hn with rfl | rfl | rfl | rfl | rfl | rfl | rfl | rfl | rfl | rfl | rfl <;>
      exact ⟨_, rfl, by decide⟩
  ordered := by decide

/-- **A settled line is the line of one pass.** -/
theorem patternLine_of_isSettled {p : Text} {e : AccessEntry} (h : IsSettled p e) :
    patternLine p e = onePass p e := foldl_replaceAll areNames h

/-! ## 2. Figures -/

/-- What numbers and times begin with: a digit, a sign, or the dash for what is missing. -/
def IsFigure (c : Char) : Prop := c.isDigit = true ∨ c = '-' ∨ c = '+'

instance (c : Char) : Decidable (IsFigure c) := inferInstanceAs (Decidable (_ ∨ _))

/-- A text that begins with a figure and names no variable. -/
structure IsFigures (t : Text) : Prop where
  noSign : '$' ∉ t
  head : ∃ c ∈ t.head?, IsFigure c

/-- Heads are tested by their list, and not by going through all characters. -/
theorem exists_head {t : Text} {P : Char → Prop} [DecidablePred P]
    (h : t.head?.any (fun c => decide (P c)) = true) : ∃ c, t.head? = some c ∧ P c := by
  cases hc : t.head? with
  | none => simp [hc] at h
  | some c => exact ⟨c, rfl, by simpa [hc] using h⟩

theorem isFigures_of_digits {digits rest : Text} (hne : digits ≠ [])
    (hdigits : ∀ c ∈ digits, c.isDigit = true) (hrest : '$' ∉ rest) :
    IsFigures (digits ++ rest) where
  noSign := by
    intro hmem
    rcases List.mem_append.mp hmem with hmem | hmem
    · exact absurd (hdigits '$' hmem) (by decide)
    · exact hrest hmem
  head := by
    obtain ⟨c, digits, rfl⟩ := List.exists_cons_of_ne_nil hne
    exact ⟨c, rfl, .inl (hdigits c List.mem_cons_self)⟩

theorem isFigures_ofNat (n : Nat) : IsFigures (Decimal.ofNat n) := by
  have hdigits : IsFigures (Decimal.ofNat n ++ []) :=
    isFigures_of_digits Nat.toDigits_ne_nil (fun _ => Decimal.isDigit_of_mem_ofNat) (by simp)
  rwa [List.append_nil] at hdigits

theorem isFigures_bytesText (e : AccessEntry) : IsFigures e.bytesText := by
  unfold bytesText
  cases e.bodyBytes with
  | none => exact ⟨by decide, '-', rfl, .inr (.inl rfl)⟩
  | some n => exact isFigures_ofNat n

theorem not_mem_padded (width n : Nat) : '$' ∉ Decimal.padded width n := fun hmem =>
  absurd (Decimal.isDigit_of_mem_padded hmem) (by decide)

theorem isFigures_duration {n : Nat} (h : n < 2 ^ 64) :
    IsFigures (Number.millionthsAsThousandths n) := by
  obtain ⟨k, hk⟩ := Number.millionthsAsThousandths_eq h
  rw [hk]
  refine isFigures_of_digits Nat.toDigits_ne_nil (fun _ => Decimal.isDigit_of_mem_ofNat) ?_
  simp [not_mem_padded]

/-! ## 3. Times -/

/-- A day of a month begins with one of four digits. -/
theorem head_commonText (t : Calendar.LocalTime) :
    ∃ c ∈ t.commonText.head?, c ∈ ['0', '1', '2', '3'] := by
  have hday : t.shown.date.day < 32 :=
    Nat.lt_succ_of_le (Calendar.ofDayNumber_bounds t.shown.dayNumber).2.2
  have hall : ∀ day < 32, (Decimal.padded 2 day).head?.any
      (fun c => decide (c ∈ ['0', '1', '2', '3'])) = true := by decide
  obtain ⟨c, hc, hdigit⟩ := exists_head (hall _ hday)
  refine ⟨c, ?_, hdigit⟩
  unfold Calendar.LocalTime.commonText
  simp only [List.append_assoc, List.head?_append]
  rw [hc]
  rfl

theorem head_yearText (y : Int) (rest : Text) :
    ∃ c ∈ (Calendar.yearText y ++ rest).head?, IsFigure c := by
  unfold Calendar.yearText
  split
  · exact ⟨'-', rfl, .inr (.inl rfl)⟩
  · split
    · exact ⟨'+', rfl, .inr (.inr rfl)⟩
    · have hne : Decimal.padded 4 y.natAbs ≠ [] :=
        List.append_ne_nil_of_right_ne_nil _ Nat.toDigits_ne_nil
      obtain ⟨c, digits, hdigits⟩ := List.exists_cons_of_ne_nil hne
      have hmem : c ∈ Decimal.padded 4 y.natAbs := by simp [hdigits]
      rw [List.nil_append, hdigits]
      exact ⟨c, rfl, .inl (Decimal.isDigit_of_mem_padded hmem)⟩

theorem isFigures_isoText (t : Calendar.LocalTime) : IsFigures t.isoText where
  noSign := (Calendar.isTimeText_isoText t).not_mem (by decide)
  head := by
    unfold Calendar.LocalTime.isoText
    simp only [List.append_assoc]
    exact head_yearText _ _

/-! ## 4. Patterns whose lines are settled -/

/-- What makes the name of the second time when a first time stands behind it. -/
def timeBeginnings : List Text := ["$time_iso86".toList, "$time_iso860".toList]

/-- **Patterns that are safe for every entry.** -/
structure IsSafe (p : Text) : Prop where
  closed : ∀ n ∈ openVariables, Piece.name n ∉ pieces variableNames p
  times : ∀ t ∈ timeBeginnings, ¬ t ++ "$time_local".toList <:+: p

/-- The first time is the only value of a safe pattern that is no figures, and the only one in
front of the second time. -/
theorem value_of_closed {e : AccessEntry} (he : e.microseconds < 2 ^ 64)
    {done todo : List (Text × Text)} {v w : Text} (h : e.patternValues = done ++ (v, w) :: todo)
    (hopen : v ∉ openVariables) (htodo : todo ≠ []) :
    v = "$time_local".toList ∧ w = e.time.commonText ∨
      IsFigures w ∧ "$time_iso8601".toList ∉ todo.map Prod.fst := by
  have hget : e.patternValues[done.length]? = some (v, w) := by rw [h]; simp
  have hdrop : e.patternValues.drop (done.length + 1) = todo := by rw [h]; simp
  have hlength : done.length < 11 := by
    have := congrArg List.length h
    rw [List.length_append, List.length_cons] at this
    have : e.patternValues.length = 11 := rfl
    omega
  subst hdrop
  rw [List.map_drop, map_patternValues]
  generalize done.length = i at hget hlength htodo ⊢
  -- the table, row by row
  interval_cases i <;> cases hget
  · exact absurd (by decide) hopen
  · exact .inl ⟨rfl, rfl⟩
  · exact .inr ⟨isFigures_isoText _, by decide⟩
  · exact .inr ⟨isFigures_duration he, by decide⟩
  · exact absurd (by decide) hopen
  · exact absurd (by decide) hopen
  · exact absurd (by decide) hopen
  · exact .inr ⟨isFigures_ofNat _, by decide⟩
  · exact .inr ⟨isFigures_bytesText e, by decide⟩
  · exact absurd (by decide) hopen
  · exact absurd rfl htodo

theorem eq_or_not_isFigure {n : Text} (h : n ∈ variableNames) :
    n = "$time_iso8601".toList ∨ ∀ c ∈ n, ¬ IsFigure c := by
  have hall : ∀ n ∈ variableNames, n = "$time_iso8601".toList ∨
      n.all (fun c => decide (¬ IsFigure c)) = true := by decide
  refine (hall n h).imp_right fun hno c hc => ?_
  exact of_decide_eq_true (List.all_eq_true.mp hno c hc)

/-- Only these two beginnings of the name of the second time go on as a day can begin. -/
theorem mem_timeBeginnings {t : Text} {c : Char} (hc : c ∈ ['0', '1', '2', '3'])
    (h : t ++ [c] <+: "$time_iso8601".toList) : t ∈ timeBeginnings := by
  have hall : ∀ s ∈ "$time_iso8601".toList.inits, s.getLast?.all (fun c =>
      decide (c ∈ ['0', '1', '2', '3'] → s.dropLast ∈ timeBeginnings)) = true := by decide
  have hlast := hall (t ++ [c]) ((List.mem_inits _ _).mpr h)
  rw [List.getLast?_concat, List.dropLast_concat] at hlast
  exact of_decide_eq_true hlast hc

/-- **A safe pattern is settled** for every entry of which the time taken fits into 64 bits. -/
theorem IsSafe.isSettled {p : Text} (h : IsSafe p) {e : AccessEntry}
    (he : e.microseconds < 2 ^ 64) : IsSettled p e := by
  intro done v w todo hvars hv htodo
  have hopen : v ∉ openVariables := fun hmem => h.closed v hmem hv
  have hlater : ∀ n ∈ todo.map Prod.fst, n ∈ variableNames := by
    intro n hn
    rw [← map_patternValues e, hvars, List.map_append, List.map_cons]
    exact List.mem_append_right _ (List.mem_cons_of_mem _ hn)
  rcases value_of_closed he hvars hopen htodo with ⟨rfl, rfl⟩ | ⟨⟨hsign, c, hc, hfigure⟩, htimes⟩
  · have hsign : '$' ∉ e.time.commonText :=
      (Calendar.isTimeText_commonText e.time).not_mem (by decide)
    refine ⟨hsign, fun before x t after hplace n hn _ => ?_⟩
    obtain ⟨c, hc, hdigit⟩ := head_commonText e.time
    refine ⟨c, hc, fun hgoes => ?_⟩
    rcases eq_or_not_isFigure (hlater n hn) with rfl | hno
    · refine h.times (x.source ++ t) (mem_timeBeginnings hdigit hgoes) ?_
      have hp := source_pieces areNames.ne_nil p
      rw [hplace] at hp
      refine ⟨source before, source after, ?_⟩
      rw [← hp]
      simp [Piece.source]
    · have hfigures : ['0', '1', '2', '3'].all (fun c => decide (IsFigure c)) = true := by decide
      have hfigure := of_decide_eq_true (List.all_eq_true.mp hfigures c hdigit)
      exact hno c (hgoes.subset (by simp)) hfigure
  · refine ⟨hsign, fun before x t after _ n hn _ => ⟨c, hc, fun hgoes => ?_⟩⟩
    rcases eq_or_not_isFigure (hlater n hn) with rfl | hno
    · exact htimes hn
    · exact hno c (hgoes.subset (by simp)) hfigure

/-! ## 5. Patterns whose lines are not -/

/-- An entry whose client sends the name of the last variable for everything. -/
def echoing : AccessEntry where
  client := "$http_user_agent".toList
  time := ⟨⟨0, 0⟩, 0⟩
  method := "$http_user_agent".toList
  path := "$http_user_agent".toList
  referer := some "$http_user_agent".toList
  userAgent := some ['!']

/-- What a client sends is read again, if its variable is open. -/
theorem ne_of_open {p n : Text} (hn : n ∈ openVariables)
    (h : Piece.name n ∈ pieces variableNames p) : patternLine p echoing ≠ onePass p echoing := by
  intro heq
  have hgone : ¬ '$' :: "http_user_agent".toList <:+: patternLine p echoing :=
    not_infix_replaceAll_self (by decide) ⟨'!', rfl, by decide⟩ _
  have hvalue : ∀ n ∈ openVariables, "$http_user_agent".toList <:+: echoing.valueOf n := by
    decide
  obtain ⟨before, after, hplace⟩ := List.append_of_mem h
  have hline : echoing.valueOf n <:+: onePass p echoing := by
    rw [onePass, hplace, render_append, render_cons, ← List.append_assoc]
    exact ⟨_, _, rfl⟩
  rw [← heq] at hline
  exact hgone ((hvalue n hn).trans hline)

/-- An entry of a given time whose other values begin as no variable goes on. -/
def quiet (seconds : Int) : AccessEntry where
  client := ['!']
  time := ⟨⟨seconds, 0⟩, 0⟩
  method := ['!']
  path := ['!']
  microseconds := 2000000

/-- The values that are put in after the two times. -/
theorem quiet_later (seconds : Int) : ∀ v ∈ (quiet seconds).patternValues.drop 3,
    '$' ∉ v.2 ∧ ∃ c ∈ v.2.head?, c ∉ "time_iso8601".toList := by
  have hduration : Number.millionthsAsThousandths 2000000 = "2.000".toList := by decide +kernel
  have hstatus : Decimal.ofNat 200 = "200".toList := by decide
  have hvalues : (quiet seconds).patternValues.drop 3 =
      (variableNames.drop 3).zip ["2.000".toList, ['!'], ['!'], "! ! HTTP/1.1".toList,
        "200".toList, ['-'], ['-'], ['-']] := by
    rw [← hduration, ← hstatus]
    rfl
  have hall : ∀ v ∈ (quiet seconds).patternValues.drop 3, '$' ∉ v.2 ∧
      v.2.head?.any (fun c => decide (c ∉ "time_iso8601".toList)) = true := by
    rw [hvalues]
    decide
  intro v hv
  obtain ⟨hsign, hhead⟩ := hall v hv
  exact ⟨hsign, exists_head hhead⟩

/-- Two days that make the name of the second time, in a year that does not. -/
theorem exists_day {t : Text} (ht : t ∈ timeBeginnings) :
    ∃ seconds, "$time_iso8601".toList <+: t ++ (quiet seconds).time.commonText ∧
      (quiet seconds).time.isoText.head? = some '2' := by
  rcases List.mem_pair.mp ht with rfl | rfl
  · exact ⟨1704067200, by decide, by decide⟩
  · exact ⟨1704844800, by decide, by decide⟩

theorem pieces_timeBeginning {t : Text} (ht : t ∈ timeBeginnings) (rest : Text) :
    pieces variableNames (t ++ ("$time_local".toList ++ rest)) =
      t.map Piece.char ++ .name "$time_local".toList :: pieces variableNames rest := by
  rcases List.mem_pair.mp ht with rfl | rfl
  · rfl
  · rfl

/-- A name that a time makes is replaced like any other, and stands in the line of one pass. -/
theorem ne_of_times {p t : Text} (ht : t ∈ timeBeginnings)
    (h : t ++ "$time_local".toList <:+: p) :
    ∃ seconds, patternLine p (quiet seconds) ≠ onePass p (quiet seconds) := by
  obtain ⟨seconds, hmade, hyear⟩ := exists_day ht
  refine ⟨seconds, fun heq => ?_⟩
  have hgone : ¬ '$' :: "time_iso8601".toList <:+: patternLine p (quiet seconds) := by
    rw [patternLine, ← List.take_append_drop 3 (quiet seconds).patternValues, List.foldl_append]
    refine not_infix_foldl_replaceAll (quiet_later seconds) ?_
    exact not_infix_replaceAll_self (isFigures_isoText _).noSign ⟨'2', hyear, by decide⟩ _
  obtain ⟨a, b, rfl⟩ := h
  obtain ⟨u, hu⟩ : ∃ u, t = '$' :: u := by
    rcases List.mem_pair.mp ht with rfl | rfl
    · exact ⟨_, rfl⟩
    · exact ⟨_, rfl⟩
  obtain ⟨before, hbefore⟩ :=
    areNames.exists_pieces_sign a (u ++ ("$time_local".toList ++ b))
  rw [← List.cons_append, ← hu, pieces_timeBeginning ht] at hbefore
  have hline : t ++ (quiet seconds).time.commonText <:+:
      onePass (a ++ (t ++ "$time_local".toList) ++ b) (quiet seconds) := by
    rw [List.append_assoc, List.append_assoc, onePass, hbefore, render_append, render_append,
      render_chars, render_cons]
    exact ⟨_, _, by simp only [List.append_assoc]; rfl⟩
  rw [← heq] at hline
  exact hgone (hmade.isInfix.trans hline)

/-! ## 6. All patterns -/

/-- **The line of a pattern is the line of one pass** for every settled entry; and for all entries
exactly if the pattern is safe. -/
theorem line_pattern_onePass (p : Text) :
    (∀ e, IsSettled p e → line (.pattern p) e = onePass p e) ∧
      ((∀ e : AccessEntry, e.microseconds < 2 ^ 64 → line (.pattern p) e = onePass p e) ↔
        IsSafe p) := by
  refine ⟨fun e h => patternLine_of_isSettled h, ?_, ?_⟩
  · intro hall
    refine ⟨fun n hn hp => ?_, fun t ht hp => ?_⟩
    · exact ne_of_open hn hp (hall echoing (by decide))
    · obtain ⟨seconds, hne⟩ := ne_of_times ht hp
      exact hne (hall (quiet seconds) (by simp [quiet]))
  · intro hsafe e he
    exact patternLine_of_isSettled (hsafe.isSettled he)

/-- Values that hold no sign, and begin with a character that no name holds, complete no name. -/
theorem isSettled_of_heads {p : Text} {e : AccessEntry}
    (h : ∀ v ∈ e.patternValues, Piece.name v.1 ∈ pieces variableNames p →
      '$' ∉ v.2 ∧ v.2.head?.any (fun c => decide (∀ n ∈ variableNames, c ∉ n)) = true) :
    IsSettled p e := by
  intro done v w todo hvars hv _
  obtain ⟨hsign, hhead⟩ := h (v, w) (by rw [hvars]; simp) hv
  obtain ⟨c, hc, hno⟩ := exists_head hhead
  refine ⟨hsign, fun before x t after _ n hn _ => ⟨c, hc, fun hgoes => ?_⟩⟩
  refine hno n ?_ (hgoes.subset (by simp))
  rw [← map_patternValues e, hvars, List.map_append, List.map_cons]
  exact List.mem_append_right _ (List.mem_cons_of_mem _ hn)

/-- A request for a file, with a user agent that names a variable. -/
def fileEntry : AccessEntry where
  client := "127.0.0.1".toList
  time := ⟨⟨784111777, 0⟩, 0⟩
  method := "GET".toList
  path := "/pkg/app_bg.wasm".toList
  query := some "v=3".toList
  userAgent := some "$status".toList

theorem line_of_fileEntry :
    line (.pattern "$$request_method $request_uri_ -> $status".toList) fileEntry =
      onePass "$$request_method $request_uri_ -> $status".toList fileEntry :=
  (line_pattern_onePass _).1 fileEntry (isSettled_of_heads (by decide))

/-- A request for a path that names a variable. -/
def statusEntry : AccessEntry where
  client := "127.0.0.1".toList
  time := ⟨⟨0, 0⟩, 0⟩
  method := "GET".toList
  path := "/$status".toList

/-- **The path is not written as it is**: the variable in it is replaced. -/
theorem line_of_statusEntry : line (.pattern "$request_uri".toList) statusEntry = "/200".toList ∧
    onePass "$request_uri".toList statusEntry = "/$status".toList := by
  decide

end IsolatedSite.AccessEntry
