/-
# Combined log lines

The combined format puts the referer and the user agent behind a common log line, each between
quotation marks, and both may hold quotation marks of their own.  A reader who looks for the end of
the referer looks for `" "`, and a client can write that as well.

What a line tells of the two is the text that they make with `" "` between them, so it tells them
apart exactly if that text can be cut in one place only (`combined_line_tells_iff`).  It cannot if
`" "` begins in the referer or ends in the user agent (`HasOneSeam`), and then another client makes
the same line with another pair (`not_forall_combined_line_tells`).
-/
import IsolatedSite.Proofs.CommonLines
import Mathlib.Data.List.Infix

namespace IsolatedSite

open IsolatedSite.Http

/-! ## 1. Seams -/

/-- What stands between the referer and the user agent. -/
def seam : Text := ['"', ' ', '"']

/-- The seam between two texts is the only one: none begins in the first text, and none ends in the
second. -/
structure HasOneSeam (front back : Text) : Prop where
  front : ¬ seam <:+: front ++ ['"']
  back : ¬ seam <:+: '"' :: back

instance (front back : Text) : Decidable (HasOneSeam front back) :=
  decidable_of_iff (¬ seam <:+: front ++ ['"'] ∧ ¬ seam <:+: '"' :: back)
    ⟨fun h => ⟨h.1, h.2⟩, fun h => ⟨h.front, h.back⟩⟩

/-- **Texts without quotation marks** have one seam between them: it has two of them. -/
theorem hasOneSeam_of_not_mem {front back : Text} (hfront : '"' ∉ front) (hback : '"' ∉ back) :
    HasOneSeam front back := by
  have hseam : seam.count '"' = 2 := by decide
  constructor
  · intro h
    have hcount := h.sublist.count_le '"'
    rw [hseam, List.count_append, List.count_eq_zero_of_not_mem hfront] at hcount
    exact absurd hcount (by decide)
  · intro h
    have hcount := h.sublist.count_le '"'
    rw [hseam, List.count_cons_self, List.count_eq_zero_of_not_mem hback] at hcount
    exact absurd hcount (by decide)

/-- A seam that is shifted to the right shows in what it was shifted over, and in what it was
shifted into: a shift by one place is impossible, and by two or more the two seams have one
quotation mark in common at most. -/
theorem infix_of_shifted {gap back behind : Text} (hgap : gap ≠ [])
    (h : seam ++ behind = gap ++ (seam ++ back)) :
    seam <:+: gap ++ ['"'] ∧ seam <:+: '"' :: behind := by
  obtain _ | ⟨c, _ | ⟨d, gap⟩⟩ := gap
  · exact absurd rfl hgap
  · simp [seam] at h
  · simp only [seam, List.cons_append, List.nil_append, List.cons.injEq] at h
    obtain ⟨rfl, rfl, h⟩ := h
    constructor
    · cases gap with
      | nil => exact List.infix_rfl
      | cons e gap =>
        obtain rfl : '"' = e := (List.cons.inj h).1
        exact ⟨[], gap ++ ['"'], rfl⟩
    · rw [h]
      exact ⟨gap, back, by simp [seam]⟩

/-- **With one seam** there is one way to cut at a seam. -/
theorem HasOneSeam.unique {front back front' back' : Text} (h : HasOneSeam front back)
    (heq : front' ++ seam ++ back' = front ++ seam ++ back) : front' = front ∧ back' = back := by
  simp only [List.append_assoc] at heq
  rcases List.append_eq_append_iff.mp heq with ⟨gap, rfl, hgap⟩ | ⟨gap, rfl, hgap⟩
  · by_cases hnil : gap = []
    · subst hnil
      exact ⟨by simp, List.append_cancel_left hgap⟩
    · obtain ⟨before, behind, hoccurs⟩ := (infix_of_shifted hnil hgap).1
      refine absurd ⟨front' ++ before, behind, ?_⟩ h.front
      rw [List.append_assoc front' gap, ← hoccurs]
      simp
  · by_cases hnil : gap = []
    · subst hnil
      exact ⟨by simp, (List.append_cancel_left hgap).symm⟩
    · exact absurd (infix_of_shifted hnil hgap).2 h.back

/-- **With another seam** there is another way. -/
theorem exists_other_of_not_hasOneSeam {front back : Text} (h : ¬ HasOneSeam front back) :
    ∃ front' back', front' ++ seam ++ back' = front ++ seam ++ back ∧ front' ≠ front := by
  by_cases hfront : seam <:+: front ++ ['"']
  · obtain ⟨before, behind, hoccurs⟩ := hfront
    refine ⟨before, behind ++ [' ', '"'] ++ back, ?_, ?_⟩
    · calc before ++ seam ++ (behind ++ [' ', '"'] ++ back)
          = before ++ seam ++ behind ++ ([' ', '"'] ++ back) := by simp
        _ = front ++ ['"'] ++ ([' ', '"'] ++ back) := by rw [hoccurs]
        _ = front ++ seam ++ back := by simp [seam]
    · rintro rfl
      have hlength := congrArg List.length hoccurs
      simp [seam] at hlength
  · have hback : seam <:+: '"' :: back := by
      by_contra hback
      exact h ⟨hfront, hback⟩
    obtain ⟨before, behind, hoccurs⟩ := hback
    refine ⟨front ++ ['"', ' '] ++ before, behind, ?_, ?_⟩
    · calc front ++ ['"', ' '] ++ before ++ seam ++ behind
          = front ++ ['"', ' '] ++ (before ++ seam ++ behind) := by simp
        _ = front ++ ['"', ' '] ++ '"' :: back := by rw [hoccurs]
        _ = front ++ seam ++ back := by simp [seam]
    · simp

/-! ## 2. Texts of fields -/

/-- The characters of a field that is shown: printable ones and tabs. -/
def Text.IsVisible (t : Text) : Prop := ∀ c ∈ t, c = '\t' ∨ IsPrintable c

-- by the list, and not by going through all characters
instance (t : Text) : Decidable (Text.IsVisible t) :=
  List.decidableBAll (fun c => c = '\t' ∨ IsPrintable c) t

theorem Text.isVisible_append {s t : Text} : IsVisible (s ++ t) ↔ IsVisible s ∧ IsVisible t :=
  List.forall_mem_append

theorem Text.IsVisible.lt {t : Text} (h : IsVisible t) : ∀ c ∈ t, c.toNat < 128 := by
  intro c hc
  rcases h c hc with rfl | hprintable
  · decide
  · exact Nat.lt_succ_of_lt hprintable.2

namespace Http

theorem isVisible_of_visibleText? {b : Bytes} {t : Text} (h : visibleText? b = some t) :
    t.IsVisible := by
  have hbyte : ∀ x, isVisibleByte x = true →
      Char.ofNat x.toNat = '\t' ∨ IsPrintable (Char.ofNat x.toNat) :=
    Percent.forall_octet (by decide +kernel)
  unfold visibleText? at h
  split at h
  · rename_i hall
    obtain rfl := Option.some.inj h
    intro c hc
    obtain ⟨x, hx, rfl⟩ := List.mem_map.mp hc
    exact hbyte x (List.all_eq_true.mp hall x hx)
  · cases h

/-- **Every such text** is that of some octets. -/
theorem visibleText?_map {t : Text} (h : t.IsVisible) :
    visibleText? (t.map fun c => c.toNat.toUInt8) = some t := by
  have hbyte : ∀ c, c = '\t' ∨ IsPrintable c → isVisibleByte c.toNat.toUInt8 = true := by
    rintro c (rfl | ⟨hlow, hhigh⟩)
    · decide
    · have hoctet : c.toNat.toUInt8.toNat = c.toNat := toNat_toUInt8 (by omega)
      simp only [isVisibleByte, Bool.or_eq_true, Bool.and_eq_true, decide_eq_true_eq,
        UInt8.le_iff_toNat_le, hoctet]
      exact .inr ⟨hlow, Nat.le_of_lt_succ hhigh⟩
  have hall : (t.map fun c => c.toNat.toUInt8).all isVisibleByte = true := by
    rw [List.all_map, List.all_eq_true]
    exact fun c hc => hbyte c (h c hc)
  rw [visibleText?, if_pos hall, asciiText_map h.lt]

end Http

namespace AccessEntry

open Connection

theorem isVisible_orDash {t : Option Text} (h : ∀ s, t = some s → s.IsVisible) :
    (orDash t).IsVisible := by
  cases t with
  | none => exact show Text.IsVisible ['-'] by decide
  | some s => exact h s rfl

theorem isVisible_of_headerText? {name : String} {h : Head} {t : Text}
    (ht : headerText? name h = some t) : t.IsVisible := by
  obtain ⟨value, -, hvalue⟩ := Option.bind_eq_some_iff.mp ht
  exact isVisible_of_visibleText? hvalue

theorem IsOfRequest.isVisible_agents {e : AccessEntry} (h : e.IsOfRequest) :
    (orDash e.referer).IsVisible ∧ (orDash e.userAgent).IsVisible := by
  obtain ⟨w, head, t, -, -, hdescribes⟩ := h
  constructor
  · rw [hdescribes.referer]
    exact isVisible_orDash fun _ => isVisible_of_headerText?
  · rw [hdescribes.userAgent]
    exact isVisible_orDash fun _ => isVisible_of_headerText?

/-- The entry with another referer and another user agent. -/
def withAgents (e : AccessEntry) (referer userAgent : Text) : AccessEntry :=
  { e with referer := some referer, userAgent := some userAgent }

/-- **Clients choose both**: the head of the request may have any fields. -/
theorem IsOfRequest.withAgents {e : AccessEntry} (h : e.IsOfRequest) {referer userAgent : Text}
    (hreferer : referer.IsVisible) (hagent : userAgent.IsVisible) :
    (e.withAgents referer userAgent).IsOfRequest := by
  obtain ⟨w, head, t, hmethod, ht, hdescribes⟩ := h
  refine ⟨w, { head with fields :=
    [(ascii "referer", referer.map fun c => c.toNat.toUInt8),
     (ascii "user-agent", userAgent.map fun c => c.toNat.toUInt8)] }, t, hmethod, ht,
    { hdescribes with referer := ?_, userAgent := ?_ }⟩
  · exact (visibleText?_map hreferer).symm
  · exact (visibleText?_map hagent).symm

/-! ## 3. Lines -/

/-- What a line tells of the referer and the user agent. -/
def agentsText (e : AccessEntry) : Text := orDash e.referer ++ seam ++ orDash e.userAgent

theorem combinedLine_eq (e : AccessEntry) :
    e.combinedLine = e.commonLine ++ ' ' :: '"' :: (e.agentsText ++ ['"']) := by
  simp [combinedLine, agentsText, seam]

/-- **What a line tells**: what the common one does, and one text for referer and user agent. -/
theorem combinedLine_eq_iff {e e' : AccessEntry} (h : e.IsOfRequest) (h' : e'.IsOfRequest) :
    e.combinedLine = e'.combinedLine ↔
      e.commonFields = e'.commonFields ∧ e.agentsText = e'.agentsText := by
  rw [combinedLine_eq, combinedLine_eq]
  constructor
  · intro heq
    have hread := h.hasWords.readCommon?_append (' ' :: '"' :: (e.agentsText ++ ['"']))
      (by simp)
    rw [heq, h'.hasWords.readCommon?_append _ (by simp)] at hread
    obtain ⟨hcommon, hagents⟩ := Prod.mk.inj (Option.some.inj hread)
    have hrest := (List.cons.inj (List.cons.inj hagents).2).2
    exact ⟨hcommon.symm, (List.append_cancel_right hrest).symm⟩
  · rintro ⟨hcommon, hagents⟩
    rw [commonLine_eq_of_commonFields_eq hcommon, hagents]

/-- Two entries have the same referer and the same user agent, where a missing one is a dash. -/
structure SameAgents (e e' : AccessEntry) : Prop where
  referer : orDash e.referer = orDash e'.referer
  userAgent : orDash e.userAgent = orDash e'.userAgent

/-- **What combined log lines tell.**  Two lines for requests are the same exactly if their common
parts are and the referers and user agents make the same text with a seam between them.  So the
line of an entry tells its referer and its user agent, whatever others write, exactly if that seam
is the only one in the text. -/
theorem combined_line_tells_iff {e : AccessEntry} (h : e.IsOfRequest) :
    (∀ e' : AccessEntry, e'.IsOfRequest → (e.line .combined = e'.line .combined ↔
      e.commonFields = e'.commonFields ∧ e.agentsText = e'.agentsText)) ∧
    ((∀ e' : AccessEntry, e'.IsOfRequest → e.line .combined = e'.line .combined →
      e.SameAgents e') ↔ HasOneSeam (orDash e.referer) (orDash e.userAgent)) := by
  refine ⟨fun e' h' => combinedLine_eq_iff h h', ?_⟩
  constructor
  · intro hsame
    by_contra hseam
    obtain ⟨referer, userAgent, htext, hne⟩ := exists_other_of_not_hasOneSeam hseam
    have hvisible : Text.IsVisible (referer ++ seam ++ userAgent) := by
      have hboth := h.isVisible_agents
      rw [htext]
      exact Text.isVisible_append.mpr
        ⟨Text.isVisible_append.mpr ⟨hboth.1, by decide⟩, hboth.2⟩
    obtain ⟨hfront, hagent⟩ := Text.isVisible_append.mp hvisible
    have h' := h.withAgents (Text.isVisible_append.mp hfront).1 hagent
    have hline : e.combinedLine = (e.withAgents referer userAgent).combinedLine :=
      (combinedLine_eq_iff h h').mpr ⟨rfl, htext.symm⟩
    exact hne (hsame _ h' hline).referer.symm
  · intro hseam e' h' hline
    have htext := ((combinedLine_eq_iff h h').mp hline).2
    obtain ⟨hreferer, hagent⟩ := hseam.unique htext.symm
    exact ⟨hreferer.symm, hagent.symm⟩

/-- The entry for a request for `/` without any fields. -/
def entryForRoot : AccessEntry :=
  entryOf loggingSurroundings
    ⟨ascii "GET", ⟨"/".toList, none⟩, .http11, fieldsOf ⟨ascii "GET", ascii "/", .http11, []⟩⟩
    ⟨.ok, [], []⟩

theorem isOfRequest_entryForRoot : entryForRoot.IsOfRequest :=
  isOfRequest_entryOf (h := ⟨ascii "GET", ascii "/", .http11, []⟩) (by decide) (by decide +kernel)
    loggingSurroundings _

/-- Quotation marks alone do no harm: nobody else writes this line. -/
theorem quotedAgents_told :
    (entryForRoot.withAgents "a\"b".toList "\"".toList).IsOfRequest ∧
      ∀ e' : AccessEntry, e'.IsOfRequest →
        (entryForRoot.withAgents "a\"b".toList "\"".toList).line .combined = e'.line .combined →
          orDash e'.referer = "a\"b".toList ∧ orDash e'.userAgent = "\"".toList := by
  have h : (entryForRoot.withAgents "a\"b".toList "\"".toList).IsOfRequest :=
    isOfRequest_entryForRoot.withAgents (by decide) (by decide)
  refine ⟨h, ?_⟩
  intro e' h' hline
  have hsame := (combined_line_tells_iff h).2.mpr (by decide) e' h' hline
  exact ⟨hsame.referer.symm, hsame.userAgent.symm⟩

/-- **Lines do not always tell.**  A client with the referer `a" "b` and the user agent `c` leaves
the line of another one with the referer `a` and the user agent `b" "c`. -/
theorem not_forall_combined_line_tells :
    ¬ ∀ e e' : AccessEntry, e.IsOfRequest → e'.IsOfRequest →
      e.line .combined = e'.line .combined → e.SameAgents e' := by
  intro h
  have hforged : (entryForRoot.withAgents "a\" \"b".toList ['c']).IsOfRequest :=
    isOfRequest_entryForRoot.withAgents (by decide) (by decide)
  have hother : (entryForRoot.withAgents ['a'] "b\" \"c".toList).IsOfRequest :=
    isOfRequest_entryForRoot.withAgents (by decide) (by decide)
  have hsame := h _ _ hforged hother ((combinedLine_eq_iff hforged hother).mpr ⟨rfl, by decide⟩)
  exact absurd hsame.referer (by decide)

end AccessEntry

end IsolatedSite
