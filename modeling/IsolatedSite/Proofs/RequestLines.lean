/-
# First lines of requests

A `RequestLine` is the first line of a request, with the empty lines in front of it: a method, a
target and whatever stands where the version is expected.  Up to the version the scan of a head
waits for more (`scan_of_prefix_front`).  From there on it objects to the version as soon as what
has arrived of it neither begins a version that is served nor begins with one (`IsForeign`), and
behind a version that is served it never does (`scan_front_eq_refused_iff`).
-/
import IsolatedSite.Proofs.Cutting
import IsolatedSite.Proofs.HeadStability

namespace IsolatedSite.Http

/-! ## 1. Faults that are not raised -/

namespace Scan

variable {ε α β : Type} {fault other : ε}

/-- A scanner that never raises a given fault. -/
def Avoids (fault : ε) (scanner : Bytes → Scan ε α) : Prop := ∀ b, scanner b ≠ .refused fault

theorem avoids_done (a : α) : Avoids fault (Scan.done a : Bytes → Scan ε α) := fun _ h => by cases h

theorem avoids_refused (h : other ≠ fault) : Avoids fault fun _ => (.refused other : Scan ε α) :=
  fun _ heq => h (Scan.refused.inj heq)

theorem Avoids.bind {f : Bytes → Scan ε α} {next : α → Bytes → Scan ε β} (hf : Avoids fault f)
    (hnext : ∀ a, Avoids fault (next a)) : Avoids fault fun b => (f b).bind next := by
  intro b
  cases hb : f b with
  | waiting => simp [hb]
  | refused e =>
    intro heq
    obtain rfl : e = fault := by simpa [hb] using heq
    exact hf b hb
  | done a rest => simpa [hb] using hnext a rest

theorem Avoids.map {f : Bytes → Scan ε α} (g : α → β) (hf : Avoids fault f) :
    Avoids fault fun b => (f b).map g :=
  hf.bind fun a => avoids_done (g a)

theorem avoids_run (isIn : UInt8 → Bool) : Avoids fault (run isIn : Bytes → Scan ε Bytes) := by
  intro b
  unfold run
  split <;> simp

theorem avoids_expect (h : other ≠ fault) (x : UInt8) : Avoids fault (expect other x) := by
  intro b
  cases b with
  | nil => simp [expect]
  | cons y rest => by_cases hy : y = x <;> simp [expect, hy, h]

theorem avoids_lineEnd (h : other ≠ fault) : Avoids fault (lineEnd other) := by
  intro b
  cases b with
  | nil => simp [lineEnd]
  | cons x rest =>
    by_cases hlf : x = Byte.lf
    · simp [lineEnd, hlf]
    · by_cases hcr : x = Byte.cr
      · rw [lineEnd, if_neg hlf, if_pos hcr]
        exact avoids_expect h Byte.lf rest
      · simp [lineEnd, hlf, hcr, h]

/-- A run up to an octet that does not belong to it. -/
theorem run_append {isIn : UInt8 → Bool} {xs : Bytes} (hxs : ∀ x ∈ xs, isIn x = true) {y : UInt8}
    (hy : isIn y = false) (rest : Bytes) :
    (run isIn (xs ++ y :: rest) : Scan ε Bytes) = .done xs (y :: rest) := by
  have hends : EndsRun isIn (y :: rest) := endsRun_cons hy rest
  simp only [run, takeWhile_run hxs hends, dropWhile_run hxs hends]

end Scan

namespace Head

open Scan

theorem avoids_scanLine : Avoids .version scanLine := by
  intro b
  cases b with
  | nil => simp [scanLine]
  | cons x rest =>
    by_cases hx : x = Byte.cr ∨ x = Byte.lf
    · rw [scanLine, if_pos hx]
      exact ((avoids_lineEnd (by decide)).bind fun _ => avoids_done none) (x :: rest)
    · have hname : Avoids .version scanName :=
        (avoids_run _).bind fun n => (avoids_expect (by decide) _).bind fun _ rest => by
          split <;> simp
      have hvalue : Avoids .version scanValue :=
        (avoids_run _).bind fun v => (avoids_lineEnd (by decide)).bind fun _ => avoids_done _
      rw [scanLine, if_neg hx]
      exact (hname.bind fun n => hvalue.bind fun v => avoids_done (some (n, v))) (x :: rest)

/-- No field is taken for a bad version. -/
theorem avoids_scanLines : ∀ room, Avoids .version (scanLines room)
  | 0 => by
    refine avoids_scanLine.bind fun l => ?_
    cases l with
    | none => exact avoids_done []
    | some f => exact avoids_refused (by decide)
  | room + 1 => by
    refine avoids_scanLine.bind fun l => ?_
    cases l with
    | none => exact avoids_done []
    | some f => exact (avoids_scanLines room).map (f :: ·)

/-! ## 2. Versions -/

/-- The versions that are served, as they are written. -/
def servedVersions : List Bytes := [ascii "HTTP/1.0", ascii "HTTP/1.1"]

/-- Octets that neither begin a version that is served nor begin with one. -/
def IsForeign (b : Bytes) : Prop := ∀ served ∈ servedVersions, ¬ b <+: served ∧ ¬ served <+: b

instance : DecidablePred IsForeign := fun b =>
  List.decidableBAll (fun served => ¬ b <+: served ∧ ¬ served <+: b) servedVersions

/-- Fewer octets than a served version has begin it if they begin all of it but the end. -/
theorem prefix_versionStart_iff {b : Bytes} (hb : b.length ≤ 7) (last : UInt8) :
    b <+: versionStart ++ [last] ↔ b <+: versionStart := by
  constructor
  · intro h
    exact List.prefix_of_prefix_length_le h (List.prefix_append _ _) hb
  · intro h
    exact h.trans (List.prefix_append _ _)

/-- **An objection to the version** is raised as soon as it is foreign. -/
theorem scanVersion_eq_refused_iff {b : Bytes} :
    scanVersion b = .refused .version ↔ IsForeign b := by
  have hserved : servedVersions = [versionStart ++ [48], versionStart ++ [49]] := by decide
  rw [IsForeign, hserved]
  simp only [List.forall_mem_cons, List.not_mem_nil, false_implies, implies_true, and_true]
  by_cases h8 : 8 ≤ b.length
  · have hlong : ∀ last : UInt8, (¬ b <+: versionStart ++ [last] ∧ ¬ versionStart ++ [last] <+: b) ↔
        b.take 8 ≠ versionStart ++ [last] := by
      intro last
      have htake : versionStart ++ [last] <+: b ↔ b.take 8 = versionStart ++ [last] := by
        rw [List.prefix_iff_eq_take]
        exact eq_comm
      rw [htake]
      constructor
      · exact fun h => h.2
      · refine fun h => ⟨fun hpre => h ?_, h⟩
        rw [hpre.eq_of_length_le h8]
        rfl
    rw [scanVersion, if_pos h8, hlong, hlong]
    split
    · simp_all
    · split <;> simp_all
  · have hshort : ∀ last : UInt8, (¬ b <+: versionStart ++ [last] ∧ ¬ versionStart ++ [last] <+: b) ↔
        ¬ b <+: versionStart := by
      intro last
      rw [prefix_versionStart_iff (by omega)]
      constructor
      · exact fun h => h.1
      · exact fun h => ⟨h, fun hpre => h8 hpre.length_le⟩
    rw [scanVersion, if_neg h8, hshort, hshort]
    by_cases hpre : b <+: versionStart <;> simp [hpre]

/-- What is foreign stays foreign. -/
theorem IsForeign.append {b : Bytes} (h : IsForeign b) (more : Bytes) : IsForeign (b ++ more) := by
  have hrefused := scanVersion_eq_refused_iff.mpr h
  rw [← scanVersion_eq_refused_iff, steady_scanVersion b more (by simp [hrefused]), hrefused]
  rfl

end Head

/-! ## 3. First lines -/

/-- The two ways to end a line. -/
def lineEnds : List Bytes := [[Byte.lf], [Byte.cr, Byte.lf]]

/-- The first line of a request, with empty lines in front.  Anything without a space may stand in
the place of the version. -/
structure RequestLine where
  emptyLines : List Bytes
  method : Bytes
  target : Bytes
  version : Bytes
  lineEnd : Bytes
  emptyLines_mem : ∀ l ∈ emptyLines, l ∈ lineEnds
  isToken : isToken method = true
  target_ne_nil : target ≠ []
  isTargetByte : ∀ b ∈ target, Head.isTargetByte b = true
  target_decodes : (Utf8.decode? target).isSome = true
  space_not_mem : Byte.space ∉ version
  lineEnd_mem : lineEnd ∈ lineEnds

namespace RequestLine

open Head Scan

/-- The octets in front of the version. -/
def front (r : RequestLine) : Bytes :=
  r.emptyLines.flatten ++ (r.method ++ Byte.space :: (r.target ++ [Byte.space]))

/-- All octets of the line. -/
def octets (r : RequestLine) : Bytes := r.front ++ (r.version ++ r.lineEnd)

theorem method_ne_nil (r : RequestLine) : r.method ≠ [] := by
  have h := r.isToken
  intro hnil
  simp [Http.isToken, hnil] at h

theorem isTokenByte (r : RequestLine) : ∀ b ∈ r.method, Http.isTokenByte b = true := by
  have h := r.isToken
  simp only [Http.isToken, Bool.and_eq_true, List.all_eq_true] at h
  exact h.2

theorem lf_mem_lineEnd (r : RequestLine) : Byte.lf ∈ r.lineEnd := by
  have h := r.lineEnd_mem
  simp only [lineEnds, List.mem_cons, List.not_mem_nil, or_false] at h
  rcases h with h | h <;> simp [h]

/-- Empty lines are skipped. -/
theorem scanEmptyLines_append {lines : List Bytes} (hlines : ∀ l ∈ lines, l ∈ lineEnds) {x : UInt8}
    (hlf : x ≠ Byte.lf) (hcr : x ≠ Byte.cr) (rest : Bytes) :
    scanEmptyLines (lines.flatten ++ x :: rest) = .done () (x :: rest) := by
  induction lines with
  | nil => cases rest <;> simp [scanEmptyLines, hlf, hcr]
  | cons l lines ih =>
    have ih := ih fun l' hl' => hlines l' (List.mem_cons_of_mem _ hl')
    have hl := hlines l List.mem_cons_self
    have hne : lines.flatten ++ x :: rest ≠ [] := by simp
    obtain ⟨y, ys, hys⟩ := List.exists_cons_of_ne_nil hne
    have hcrlf : Byte.cr ≠ Byte.lf := by decide
    rw [List.flatten_cons, List.append_assoc]
    rw [hys] at ih ⊢
    simp only [lineEnds, List.mem_cons, List.not_mem_nil, or_false] at hl
    rcases hl with rfl | rfl
    · simpa [scanEmptyLines] using ih
    · simpa [scanEmptyLines, hcrlf] using ih

theorem scanMethod_append (r : RequestLine) (rest : Bytes) :
    scanMethod (r.method ++ Byte.space :: rest) = .done r.method rest := by
  have hspace : Http.isTokenByte Byte.space = false := by decide
  rw [scanMethod, run_append r.isTokenByte hspace]
  simp [expect, r.method_ne_nil]

theorem scanTarget_append (r : RequestLine) (rest : Bytes) :
    scanTarget (r.target ++ Byte.space :: rest) = .done r.target rest := by
  have hspace : Head.isTargetByte Byte.space = false := by decide
  have hdecodes := r.target_decodes
  rw [scanTarget, run_append r.isTargetByte hspace]
  simp [expect, r.target_ne_nil, Option.isNone_iff_eq_none, Option.isSome_iff_ne_none.mp hdecodes]

/-- The scan of a head from the version on. -/
def scanBehind (r : RequestLine) (b : Bytes) : Scan Fault Head :=
  (scanVersion b).bind fun v b =>
    (Scan.lineEnd .lineEnd b).bind fun _ b =>
      (scanLines maxFields b).bind fun fs b => .done ⟨r.method, r.target, v, fs⟩ b

/-- **The scan comes to the version.** -/
theorem scan_front (r : RequestLine) (b : Bytes) : scan (r.front ++ b) = r.scanBehind b := by
  have hshape : r.front ++ b =
      r.emptyLines.flatten ++ (r.method ++ Byte.space :: (r.target ++ Byte.space :: b)) := by
    simp [front]
  obtain ⟨x, m, hm⟩ := List.exists_cons_of_ne_nil r.method_ne_nil
  have hx : Http.isTokenByte x = true := r.isTokenByte x (by simp [hm])
  have hlf : x ≠ Byte.lf := by
    rintro rfl
    exact absurd hx (by decide)
  have hcr : x ≠ Byte.cr := by
    rintro rfl
    exact absurd hx (by decide)
  have hempty : scanEmptyLines (r.front ++ b) =
      .done () (r.method ++ Byte.space :: (r.target ++ Byte.space :: b)) := by
    rw [hshape, hm]
    exact scanEmptyLines_append r.emptyLines_mem hlf hcr _
  rw [scan, hempty, done_bind, scanMethod_append, done_bind, scanTarget_append, done_bind]
  rfl

/-- **Before the version** nothing is known. -/
theorem scan_of_prefix_front (r : RequestLine) {b : Bytes} (h : b <+: r.front) :
    scan b = .waiting := by
  obtain ⟨more, hmore⟩ := h
  have hfront : scan (b ++ more) = .waiting := by
    rw [hmore, ← List.append_nil r.front, scan_front]
    rfl
  by_contra hne
  rw [steady_scan b more hne] at hfront
  exact hne (followedBy_eq_waiting_iff.mp hfront)

/-- **An objection to the version** is one to what has arrived of it. -/
theorem scan_front_eq_refused_iff (r : RequestLine) {b : Bytes} :
    scan (r.front ++ b) = .refused .version ↔ IsForeign b := by
  rw [scan_front, ← scanVersion_eq_refused_iff, scanBehind]
  cases hv : scanVersion b with
  | waiting => simp
  | refused e => simp
  | done v rest =>
    have hline : Avoids Fault.version (Scan.lineEnd Fault.lineEnd) := avoids_lineEnd (by decide)
    have hbehind := hline.bind fun _ => (avoids_scanLines maxFields).bind fun fs =>
      avoids_done (Head.mk r.method r.target v fs)
    exact iff_of_false (hbehind rest) (by simp)

/-- Where the version is awaited, what has arrived of it begins a version that is served. -/
theorem scan_front_eq_waiting (r : RequestLine) {b : Bytes} (h : scanVersion b = .waiting) :
    scan (r.front ++ b) = .waiting := by
  rw [scan_front, scanBehind, h]
  rfl

end RequestLine

end IsolatedSite.Http
