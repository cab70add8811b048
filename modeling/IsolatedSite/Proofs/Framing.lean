/-
# What the second reading asks of a head

A head that is passed on is read for good, and may still be refused then.  `WellFramed` says when it
is not, in terms of the head alone: no name is too long, no transfer coding comes with HTTP/1.0, the
last coding is plain text, and the content lengths in front of the first coding are bare digits of a
number that can be counted.  `exists_requestOf_iff` shows that for an accepted head this is all.

The judgement runs over the fields and keeps what they have said so far (`Framing.step`).  An
accepted head has one content length at most, so the number that the run keeps is that one
throughout, and what is left to follow is whether there has been a coding.
-/
import IsolatedSite.Connection.Admission
import IsolatedSite.Proofs.PlainText

namespace IsolatedSite.Http

/-! ## 1. Plain values -/

namespace Head

theorem le_of_isVisibleByte {b : UInt8} (h : isVisibleByte b = true) : b ≤ 0x7F := by
  simp only [isVisibleByte, Byte.tab] at h
  grind

theorem decode?_of_isVisible {value : Bytes} (h : value.all isVisibleByte = true) :
    Utf8.decode? value = some (asciiText value) :=
  Utf8.decode?_of_ascii fun b hb => le_of_isVisibleByte (List.all_eq_true.mp h b hb)

theorem le_of_isDigit {b : UInt8} (h : Byte.isDigit b = true) : b ≤ 0x7F := by
  simp only [Byte.isDigit] at h
  grind

theorem isDigit_ofNat_toNat (b : UInt8) : (Char.ofNat b.toNat).isDigit = Byte.isDigit b := by
  have hall : ∀ n < 256, (Char.ofNat n).isDigit = Byte.isDigit (UInt8.ofNat n) := by
    decide +kernel
  rw [hall b.toNat b.toNat_lt, UInt8.ofNat_toNat]

theorem all_isDigit_asciiText (value : Bytes) :
    (asciiText value).all Char.isDigit = value.all Byte.isDigit := by
  simp [asciiText, List.all_map, Function.comp_def, isDigit_ofNat_toNat]

theorem trim_of_isDigit {t : Text} (h : t.all Char.isDigit = true) : Text.trim t = t := by
  have hflush : ∀ s : Text, s.all Char.isDigit = true → s.IsFlush := fun s hs c hc =>
    Text.isBlank_of_isDigit (List.all_eq_true.mp hs c (List.mem_of_mem_head? hc))
  exact (hflush t h).trim_eq (hflush t.reverse (by simpa using h))

theorem unsigned?_of_isDigit {t : Text} (h : t.all Char.isDigit = true) (limit : Nat) :
    Decimal.unsigned? limit t = Decimal.below? limit t := by
  cases t with
  | nil => rfl
  | cons c t =>
    have hc : c ≠ '+' := by
      rintro rfl
      simp [Char.isDigit] at h
    exact Decimal.unsigned?.eq_2 limit _ fun _ heq => hc (List.cons.inj heq).1

/-- Bare digits are read alike both times. -/
theorem contentLength?_of_isDigit {value : Bytes} (h : value.all Byte.isDigit = true) :
    contentLength? value = Connection.plainLength? value := by
  have ht : (asciiText value).all Char.isDigit = true := by rw [all_isDigit_asciiText, h]
  have hdecode : Utf8.decode? value = some (asciiText value) :=
    Utf8.decode?_of_ascii fun b hb => le_of_isDigit (List.all_eq_true.mp h b hb)
  rw [contentLength?, hdecode, Option.bind_some, trim_of_isDigit ht, unsigned?_of_isDigit ht]
  rfl

/-- Values are one length exactly if there is a number that all of them give. -/
theorem isOneLength_iff {values : List Bytes} :
    isOneLength values = true ↔ ∃ n, ∀ v ∈ values, contentLength? v = some n := by
  cases values with
  | nil => simp [isOneLength]
  | cons v vs =>
    simp only [isOneLength, Bool.and_eq_true, List.all_eq_true, beq_iff_eq, List.forall_mem_cons]
    constructor
    · rintro ⟨hsome, hall⟩
      obtain ⟨n, hn⟩ := Option.isSome_iff_exists.mp hsome
      exact ⟨n, hn, fun w hw => (hall w hw).trans hn⟩
    · rintro ⟨n, hn, hall⟩
      exact ⟨Option.isSome_of_eq_some hn, fun w hw => (hall w hw).trans hn.symm⟩

end Head

end IsolatedSite.Http

namespace IsolatedSite.Connection

open IsolatedSite.Http

/-! ## 2. Lengths and codings -/

/-- What is no bare digits is no length the second time. -/
theorem plainLength?_eq_none {value : Bytes} (h : value.all Byte.isDigit = false) :
    plainLength? value = none := by
  have hnone : Decimal.value? (asciiText value) = none := by
    rw [Decimal.value?, Head.all_isDigit_asciiText, h]
    simp
  rw [plainLength?, Decimal.below?, hnone]
  rfl

/-- **Content lengths**: the second reading takes a length that the first one took exactly if it
is bare digits. -/
theorem plainLength?_eq {value : Bytes} {n : Nat} (h : Head.contentLength? value = some n) :
    plainLength? value = if value.all Byte.isDigit then some n else none := by
  cases hd : value.all Byte.isDigit with
  | true => simp [← Head.contentLength?_of_isDigit hd, h]
  | false => simp [plainLength?_eq_none hd]

/-- **Transfer codings**: the second reading recognises a `chunked` that the first one recognised
exactly if the value is plain text. -/
theorem isPlainChunked_eq {value : Bytes} (h : Head.endsInChunked value = true) :
    isPlainChunked value = value.all isVisibleByte := by
  cases hv : value.all isVisibleByte with
  | true =>
    rw [Head.endsInChunked, Head.decode?_of_isVisible hv] at h
    simpa [isPlainChunked, visibleText?, hv] using h
  | false => simp [isPlainChunked, visibleText?, hv]

/-! ## 3. One field -/

/-- A field with a transfer coding. -/
def isCoding (f : Bytes × Bytes) : Bool := Head.isNamed "transfer-encoding" f

/-- A field with a content length. -/
def isLength (f : Bytes × Bytes) : Bool := Head.isNamed "content-length" f

/-- The fields in front of the first transfer coding. -/
def uncoded (fs : List (Bytes × Bytes)) : List (Bytes × Bytes) := fs.takeWhile fun f => ! isCoding f

/-- A content length that can be counted, `n` being the length that the head gives. -/
def IsCountable (n : Nat) (f : Bytes × Bytes) : Prop := f.2.all Byte.isDigit = true ∧ n ≤ maxBody

/-- The lengths seen so far, where all are `n`: none, or a number that can be counted. -/
def Framing.HasLength (n : Nat) (f : Framing) : Prop :=
  f.length = none ∨ (f.length = some n ∧ n ≤ maxBody)

namespace Framing

theorem step_of_isCoding {v : Version} {st : Framing} {f : Bytes × Bytes}
    (hf : isCoding f = true) :
    step v st f = if v = .http10 then .error .transferCodingInOldVersion
      else .ok { st with coded := true, chunked := isPlainChunked f.2 } := by
  have hcoding : Head.isNamed "transfer-encoding" f = true := hf
  rw [step, if_pos hcoding]

/-- A content length counts only in front of the transfer codings. -/
theorem step_of_isSkipped {v : Version} {st : Framing} {f : Bytes × Bytes}
    (hf : isCoding f = false) (hskip : isLength f = false ∨ st.coded = true) :
    step v st f = .ok st := by
  have hcoding : ¬ Head.isNamed "transfer-encoding" f = true := by simpa [isCoding] using hf
  have hlength : ¬ (Head.isNamed "content-length" f = true ∧ ¬ st.coded = true) := by
    rintro ⟨hl, hc⟩
    rcases hskip with hskip | hskip
    · exact absurd hl (by simpa [isLength] using hskip)
    · exact hc hskip
  rw [step, if_neg hcoding, if_neg hlength]

theorem step_of_isLength {v : Version} {st : Framing} {f : Bytes × Bytes} {n : Nat}
    (hf : isCoding f = false) (hl : isLength f = true) (hc : st.coded = false)
    (hn : Head.contentLength? f.2 = some n) (hst : st.HasLength n) :
    (IsCountable n f ∧ step v st f = .ok { st with length := some n }) ∨
      (¬ IsCountable n f ∧ ∃ why, step v st f = .error why) := by
  have hcoding : ¬ Head.isNamed "transfer-encoding" f = true := by simpa [isCoding] using hf
  have hlength : Head.isNamed "content-length" f = true ∧ ¬ st.coded = true := ⟨hl, by simp [hc]⟩
  rw [step, if_neg hcoding, if_pos hlength, plainLength?_eq hn]
  cases hd : f.2.all Byte.isDigit with
  | false => exact Or.inr ⟨fun h => absurd h.1 (by simp [hd]), _, rfl⟩
  | true =>
    rcases hst with hnone | ⟨hsome, hle⟩
    · by_cases hle : n ≤ maxBody
      · exact Or.inl ⟨⟨hd, hle⟩, by simp [hnone, hle]⟩
      · exact Or.inr ⟨fun h => hle h.2, .tooLarge, by simp [hnone, hle]⟩
    · refine Or.inl ⟨⟨hd, hle⟩, ?_⟩
      obtain ⟨coded, chunked, length⟩ := st
      subst hsome
      simp

/-! ## 4. All fields -/

theorem foldlM_cons_of_ok {v : Version} {st st' : Framing} {f : Bytes × Bytes}
    (h : step v st f = .ok st') (fs : List (Bytes × Bytes)) :
    (f :: fs).foldlM (step v) st = fs.foldlM (step v) st' := by
  rw [List.foldlM_cons, h]
  rfl

theorem foldlM_cons_of_error {v : Version} {st : Framing} {f : Bytes × Bytes} {why : Refusal}
    (h : step v st f = .error why) (fs : List (Bytes × Bytes)) :
    (f :: fs).foldlM (step v) st = .error why := by
  rw [List.foldlM_cons, h]
  rfl

/-- **Run lemma.**  The run gets through exactly if no coding comes with the old version and the
lengths in front of the first coding can be counted.  The induction is on the fields; the length
that has been kept stays the one that all give. -/
theorem exists_foldlM_iff {v : Version} {n : Nat} {fs : List (Bytes × Bytes)}
    (hn : ∀ f ∈ fs, isLength f = true → Head.contentLength? f.2 = some n) {st : Framing}
    (hst : st.HasLength n) :
    (∃ st', fs.foldlM (step v) st = .ok st') ↔
      (v = .http10 → ∀ f ∈ fs, isCoding f = false) ∧
        (st.coded = false → ∀ f ∈ uncoded fs, isLength f = true → IsCountable n f) := by
  induction fs generalizing st with
  | nil => simp [uncoded, pure, Except.pure]
  | cons f fs ih =>
    have hrest : ∀ g ∈ fs, isLength g = true → Head.contentLength? g.2 = some n :=
      fun g hg => hn g (List.mem_cons_of_mem _ hg)
    cases hf : isCoding f with
    | true =>
      have huncoded : uncoded (f :: fs) = [] := by simp [uncoded, hf]
      by_cases hv : v = .http10
      · rw [foldlM_cons_of_error ((step_of_isCoding hf).trans (if_pos hv))]
        simp [hv, hf]
      · rw [foldlM_cons_of_ok ((step_of_isCoding hf).trans (if_neg hv)),
          ih hrest (by exact hst), huncoded]
        simp [hv]
    | false =>
      have huncoded : uncoded (f :: fs) = f :: uncoded fs := by simp [uncoded, hf]
      by_cases hl : isLength f = true ∧ st.coded = false
      · rcases step_of_isLength hf hl.1 hl.2 (hn f (by simp) hl.1) hst with
          ⟨hcount, hok⟩ | ⟨hcount, why, herr⟩
        · rw [foldlM_cons_of_ok (v := v) hok, ih hrest (Or.inr ⟨rfl, hcount.2⟩), huncoded]
          simp [hf, hl, hcount]
        · rw [foldlM_cons_of_error (v := v) herr, huncoded]
          simp [hl, hcount]
      · have hskip : isLength f = false ∨ st.coded = true := by
          rcases not_and_or.mp hl with hl | hl
          · exact Or.inl (by simpa using hl)
          · exact Or.inr (by simpa using hl)
        rw [foldlM_cons_of_ok (step_of_isSkipped hf hskip), ih hrest hst, huncoded]
        rcases hskip with hskip | hskip
        · simp [hf, hskip]
        · simp [hf, hskip]

theorem coded_chunked_of_step {v : Version} {st st' : Framing} {f : Bytes × Bytes}
    (hf : isCoding f = false) (h : step v st f = .ok st') :
    st'.coded = st.coded ∧ st'.chunked = st.chunked := by
  have hcoding : ¬ Head.isNamed "transfer-encoding" f = true := by simpa [isCoding] using hf
  rw [step, if_neg hcoding] at h
  grind

/-- What the run keeps of the codings: whether there is one, and about the last. -/
theorem coded_chunked_of_foldlM {v : Version} {fs : List (Bytes × Bytes)} {st st' : Framing}
    (h : fs.foldlM (step v) st = .ok st') :
    st'.coded = (st.coded || fs.any isCoding) ∧
      st'.chunked = ((fs.filter isCoding).getLast?.map fun f => isPlainChunked f.2).getD
        st.chunked := by
  induction fs generalizing st with
  | nil =>
    cases h
    simp
  | cons f fs ih =>
    cases hstep : step v st f with
    | error why =>
      rw [foldlM_cons_of_error hstep] at h
      cases h
    | ok mid =>
      rw [foldlM_cons_of_ok hstep] at h
      obtain ⟨hcoded, hchunked⟩ := ih h
      cases hf : isCoding f with
      | false =>
        obtain ⟨hc, hk⟩ := coded_chunked_of_step hf hstep
        rw [hcoded, hchunked, hc, hk]
        simp [hf]
      | true =>
        rw [step_of_isCoding hf] at hstep
        obtain ⟨-, rfl⟩ : v ≠ .http10 ∧
            { st with coded := true, chunked := isPlainChunked f.2 } = mid := by
          split at hstep
          · cases hstep
          · exact ⟨by assumption, Except.ok.inj hstep⟩
        rw [hcoded, hchunked, List.filter_cons_of_pos hf, List.getLast?_cons]
        cases (fs.filter isCoding).getLast? <;> simp [hf]

end Framing

/-! ## 5. Whole heads -/

/-- What the second reading asks of a head that was accepted. -/
structure WellFramed (h : Head) : Prop where
  names : ∀ f ∈ h.fields, f.1.length ≤ maxFieldName
  version : h.version = .http10 → ∀ f ∈ h.fields, isCoding f = false
  coding : ∀ f ∈ (h.fields.filter isCoding).getLast?, f.2.all isVisibleByte = true
  digits : ∀ f ∈ uncoded h.fields, isLength f = true → f.2.all Byte.isDigit = true
  countable : ∀ f ∈ uncoded h.fields, isLength f = true →
    ∀ n, Head.contentLength? f.2 = some n → n ≤ maxBody

/-- The content lengths of an accepted head are one number. -/
theorem exists_contentLength_of_isAcceptable {h : Head} (hacc : h.isAcceptable = true) :
    ∃ n, ∀ f ∈ h.fields, isLength f = true → Head.contentLength? f.2 = some n := by
  simp only [Head.isAcceptable, Bool.and_eq_true] at hacc
  obtain ⟨-, hone⟩ := hacc
  obtain ⟨n, hn⟩ := Head.isOneLength_iff.mp hone
  exact ⟨n, fun f hf hl => hn _ (List.mem_map_of_mem (List.mem_filter.mpr ⟨hf, hl⟩))⟩

theorem endsInChunked_of_isAcceptable {h : Head} (hacc : h.isAcceptable = true) {f : Bytes × Bytes}
    (hf : f ∈ h.fields.filter isCoding) : Head.endsInChunked f.2 = true := by
  simp only [Head.isAcceptable, Bool.and_eq_true, List.all_eq_true] at hacc
  exact hacc.1.2 f hf

theorem exists_requestOf_iff_checkFraming (h : Head) :
    (∃ q, requestOf h = .ok q) ↔ checkFraming h = .ok () := by
  unfold requestOf
  cases hc : checkFraming h with
  | error why => simp
  | ok u => simp

/-- The last coding was recognised, or there is none. -/
theorem chunked_iff {h : Head} (hacc : h.isAcceptable = true) {st : Framing}
    (hst : h.fields.foldlM (Framing.step h.version) {} = .ok st) :
    ¬ (st.coded ∧ ¬ st.chunked) ↔
      ∀ f ∈ (h.fields.filter isCoding).getLast?, f.2.all isVisibleByte = true := by
  obtain ⟨hcoded, hchunked⟩ := Framing.coded_chunked_of_foldlM hst
  cases hlast : (h.fields.filter isCoding).getLast? with
  | none =>
    have hnone : h.fields.any isCoding = false := by
      have hnil := List.getLast?_eq_none_iff.mp hlast
      simpa [List.filter_eq_nil_iff] using hnil
    simp [hcoded, hnone]
  | some f =>
    have hmem : f ∈ h.fields.filter isCoding := List.mem_of_getLast? hlast
    have hsome : h.fields.any isCoding = true :=
      List.any_eq_true.mpr ⟨f, List.mem_filter.mp hmem⟩
    rw [hlast, Option.map_some, Option.getD_some,
      isPlainChunked_eq (endsInChunked_of_isAcceptable hacc hmem)] at hchunked
    simp [hcoded, hsome, hchunked]

/-- **The two readings compared**: an accepted head becomes a request exactly if it is well
framed. -/
theorem exists_requestOf_iff {h : Head} (hacc : h.isAcceptable = true) :
    (∃ q, requestOf h = .ok q) ↔ WellFramed h := by
  obtain ⟨n, hn⟩ := exists_contentLength_of_isAcceptable hacc
  have hmem : ∀ f ∈ uncoded h.fields, f ∈ h.fields := (List.takeWhile_sublist _).subset
  have hst : Framing.HasLength n {} := Or.inl rfl
  have hrun := Framing.exists_foldlM_iff (v := h.version) hn hst
  rw [exists_requestOf_iff_checkFraming, checkFraming]
  by_cases hnames : ∀ f ∈ h.fields, f.1.length ≤ maxFieldName
  · have hshort : (h.fields.any fun f => maxFieldName < f.1.length) = false := by
      simpa using hnames
    rw [hshort, if_neg (by simp)]
    cases hfold : h.fields.foldlM (Framing.step h.version) {} with
    | error why =>
      constructor
      · intro hok
        cases hok
      · intro hwf
        obtain ⟨st, hst⟩ := hrun.mpr ⟨hwf.version, fun _ f hf hl =>
          ⟨hwf.digits f hf hl, hwf.countable f hf hl n (hn f (hmem f hf) hl)⟩⟩
        rw [hfold] at hst
        cases hst
    | ok st =>
      obtain ⟨hversion, hcount⟩ := hrun.mp ⟨st, hfold⟩
      have hcount := hcount rfl
      have hlast := chunked_iff hacc hfold
      constructor
      · intro hok
        refine ⟨hnames, hversion, hlast.mp fun hbad => ?_, fun f hf hl => (hcount f hf hl).1, ?_⟩
        · simp only [if_pos hbad] at hok
          cases hok
        · intro f hf hl m hm
          rw [hn f (hmem f hf) hl] at hm
          exact Option.some.inj hm ▸ (hcount f hf hl).2
      · intro hwf
        exact if_neg (hlast.mpr hwf.coding)
  · have hlong : (h.fields.any fun f => maxFieldName < f.1.length) = true := by
      simpa using hnames
    rw [hlong, if_pos rfl]
    constructor
    · intro hok
      cases hok
    · intro hwf
      exact absurd hwf.names hnames

end IsolatedSite.Connection
