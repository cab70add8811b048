/-
# A verdict on a head is final

The octets of a head are judged anew each time that more of them have arrived.  This is sound
because no scanner takes an answer back: one that has given a result or a fault gives the same one
on every longer input, and leaves what came later behind its result untouched (`Scan.Steady`).

* `Steady.bind`: chaining keeps scanners steady, so the whole of `Head.scan` is steady once its
  parts are (`Head.steady_scan`);
* `Head.verdict?_append_of_ok`: an accepted head stays accepted, and it stays the same head;
* `Head.verdict?_append_of_error`: a rejected one stays rejected.  Only the reason may become a
  different one: the message about a version looks at the whole first line, which may still grow.
-/
import IsolatedSite.Http.Rejection
import Mathlib.Data.List.Basic

namespace IsolatedSite.Http

/-! ## 1. Steady scanners -/

namespace Scan

variable {ε α β : Type}

/-- The same answer, with more octets behind what was read. -/
def followedBy (s : Scan ε α) (more : Bytes) : Scan ε α :=
  match s with
  | .waiting => .waiting
  | .refused e => .refused e
  | .done a rest => .done a (rest ++ more)

@[simp] theorem followedBy_waiting (more : Bytes) :
    (.waiting : Scan ε α).followedBy more = .waiting := rfl

@[simp] theorem followedBy_refused (e : ε) (more : Bytes) :
    (.refused e : Scan ε α).followedBy more = .refused e := rfl

@[simp] theorem followedBy_done (a : α) (rest more : Bytes) :
    (.done a rest : Scan ε α).followedBy more = .done a (rest ++ more) := rfl

theorem followedBy_eq_waiting_iff {s : Scan ε α} {more : Bytes} :
    s.followedBy more = .waiting ↔ s = .waiting := by
  cases s <;> simp

theorem followedBy_eq_refused_iff {s : Scan ε α} {more : Bytes} {e : ε} :
    s.followedBy more = .refused e ↔ s = .refused e := by
  cases s <;> simp

@[simp] theorem waiting_bind (next : α → Bytes → Scan ε β) :
    (.waiting : Scan ε α).bind next = .waiting := rfl

@[simp] theorem refused_bind (e : ε) (next : α → Bytes → Scan ε β) :
    (.refused e : Scan ε α).bind next = .refused e := rfl

@[simp] theorem done_bind (a : α) (rest : Bytes) (next : α → Bytes → Scan ε β) :
    (.done a rest : Scan ε α).bind next = next a rest := rfl

/-- A scanner whose answers are final: once it does not wait, octets that arrive later change
nothing but what is left behind the result. -/
def Steady (scanner : Bytes → Scan ε α) : Prop :=
  ∀ b more, scanner b ≠ .waiting → scanner (b ++ more) = (scanner b).followedBy more

theorem steady_done (a : α) : Steady (Scan.done a : Bytes → Scan ε α) := fun _ _ _ => rfl

theorem steady_refused (e : ε) : Steady (fun _ => (.refused e : Scan ε α)) := fun _ _ _ => rfl

theorem Steady.ite {p : Prop} [Decidable p] {f g : Bytes → Scan ε α} (hf : Steady f)
    (hg : Steady g) : Steady fun b => if p then f b else g b := by
  by_cases h : p
  · simpa [h] using hf
  · simpa [h] using hg

/-- **Chaining keeps scanners steady.**  The second scanner sees the later octets too, behind
what the first one left. -/
theorem Steady.bind {f : Bytes → Scan ε α} {next : α → Bytes → Scan ε β} (hf : Steady f)
    (hnext : ∀ a, Steady (next a)) : Steady fun b => (f b).bind next := by
  intro b more hne
  cases hb : f b with
  | waiting => exact absurd (by simp [hb]) hne
  | refused e =>
    have hlong : f (b ++ more) = .refused e := by rw [hf b more (by simp [hb]), hb]; rfl
    simp [hlong, hb]
  | done a rest =>
    have hlong : f (b ++ more) = .done a (rest ++ more) := by
      rw [hf b more (by simp [hb]), hb]; rfl
    have hrest : next a rest ≠ .waiting := by simpa [hb] using hne
    simpa [hlong, hb] using hnext a rest more hrest

theorem Steady.map {f : Bytes → Scan ε α} (g : α → β) (hf : Steady f) :
    Steady fun b => (f b).map g :=
  hf.bind fun a => steady_done (g a)

/-- A run is known to be over only when an octet outside the class is there, and then it is. -/
theorem steady_run (isIn : UInt8 → Bool) : Steady (run isIn : Bytes → Scan ε Bytes) := by
  intro b more hne
  cases hd : b.dropWhile isIn with
  | nil => exact absurd (by simp [run, hd]) hne
  | cons x rest =>
    have hlong : (b ++ more).dropWhile isIn = x :: (rest ++ more) := by
      simp [List.dropWhile_append, hd]
    have htake : (b ++ more).takeWhile isIn = b.takeWhile isIn := by
      have hlt : (b.takeWhile isIn).length ≠ b.length := by
        have hsum := congrArg List.length (List.takeWhile_append_dropWhile (p := isIn) (l := b))
        rw [hd, List.length_append, List.length_cons] at hsum
        omega
      simp [List.takeWhile_append, hlt]
    simp [run, hlong, htake, hd]

theorem steady_expect (fault : ε) (x : UInt8) : Steady (expect fault x) := by
  intro b more hne
  cases b with
  | nil => exact absurd rfl hne
  | cons y rest => by_cases h : y = x <;> simp [expect, h]

theorem steady_lineEnd (fault : ε) : Steady (lineEnd fault) := by
  intro b more hne
  cases b with
  | nil => exact absurd rfl hne
  | cons x rest =>
    by_cases hlf : x = Byte.lf
    · simp [lineEnd, hlf]
    · by_cases hcr : x = Byte.cr
      · rw [lineEnd, if_neg hlf, if_pos hcr] at hne
        rw [List.cons_append, lineEnd, lineEnd, if_neg hlf, if_neg hlf, if_pos hcr, if_pos hcr]
        exact steady_expect fault Byte.lf rest more hne
      · simp [lineEnd, hlf, hcr]

end Scan

/-! ## 2. The parts of a head -/

namespace Head

open Scan

theorem steady_scanEmptyLines : Steady scanEmptyLines := by
  intro b
  fun_induction scanEmptyLines b with
  | case1 => exact fun _ hne => absurd rfl hne
  | case2 x hx => exact fun _ hne => absurd rfl hne
  | case3 x hx =>
    intro more _
    obtain ⟨hlf, hcr⟩ := not_or.mp hx
    cases more with
    | nil => simp [scanEmptyLines, hlf, hcr]
    | cons y more => simp [scanEmptyLines, hlf, hcr]
  | case4 y rest ih =>
    intro more hne
    simpa [scanEmptyLines] using ih more hne
  | case5 rest h ih =>
    intro more hne
    simpa [scanEmptyLines, h] using ih more hne
  | case6 y rest h hy => intro more _; simp [scanEmptyLines, h, hy]
  | case7 x y rest hlf hcr => intro more _; simp [scanEmptyLines, hlf, hcr]

theorem steady_scanMethod : Steady scanMethod :=
  (steady_run _).bind fun m => (steady_expect _ _).bind fun _ =>
    (steady_refused _).ite (steady_done m)

theorem steady_scanTarget : Steady scanTarget :=
  (steady_run _).bind fun t => (steady_expect _ _).bind fun _ =>
    (steady_refused _).ite (steady_done t)

theorem steady_scanName : Steady scanName :=
  (steady_run _).bind fun n => (steady_expect _ _).bind fun _ =>
    (steady_refused _).ite (steady_done n)

theorem steady_scanValue : Steady scanValue :=
  (steady_run _).bind fun v => (steady_lineEnd _).bind fun _ => steady_done (trimBoth isPad v)

/-- Fewer than eight octets that are wrong already are still wrong when there are eight. -/
theorem take_ne_of_not_isPrefixOf {b start : Bytes} (h : b.isPrefixOf start = false)
    (hb : b.length ≤ start.length) (more last : Bytes) (n : Nat) (hn : b.length ≤ n) :
    (b ++ more).take n ≠ start ++ last := by
  intro heq
  have hpre : b <+: start ++ last := by
    rw [← heq]
    exact List.prefix_take_iff.mpr ⟨List.prefix_append b more, hn⟩
  have hstart : b <+: start := List.prefix_of_prefix_length_le hpre (List.prefix_append _ _) hb
  rw [List.isPrefixOf_iff_prefix.mpr hstart] at h
  exact absurd h (by simp)

theorem steady_scanVersion : Steady scanVersion := by
  intro b more hne
  by_cases h8 : 8 ≤ b.length
  · have hlong : 8 ≤ (b ++ more).length := by simp; omega
    have htake : (b ++ more).take 8 = b.take 8 := List.take_append_of_le_length h8
    have hdrop : (b ++ more).drop 8 = b.drop 8 ++ more := List.drop_append_of_le_length h8
    rw [scanVersion, scanVersion, if_pos hlong, if_pos h8, htake, hdrop]
    split
    · rfl
    · split <;> rfl
  · have hpre : b.isPrefixOf versionStart = false := by
      by_contra hp
      exact hne (by simp [scanVersion, h8, hp])
    have hb : b.length ≤ versionStart.length := by
      have hlen : versionStart.length = 7 := rfl
      omega
    have hrefused : scanVersion b = .refused .version := by simp [scanVersion, h8, hpre]
    rw [hrefused, followedBy, scanVersion]
    split
    · have hne' := take_ne_of_not_isPrefixOf hpre hb more (n := 8)
      simp [hne' _ (by omega)]
    · have hlong : (b ++ more).isPrefixOf versionStart = false := by
        by_contra hp
        have hp' : b ++ more <+: versionStart := by simpa using hp
        have hb' := List.isPrefixOf_iff_prefix.mpr ((List.prefix_append b more).trans hp')
        exact absurd hpre (by simp [hb'])
      simp [hlong]

theorem steady_scanLine : Steady scanLine := by
  intro b more hne
  cases b with
  | nil => exact absurd rfl hne
  | cons x rest =>
    by_cases hx : x = Byte.cr ∨ x = Byte.lf
    · have hs : Steady fun b => (Scan.lineEnd Fault.lineEnd b).bind fun _ rest =>
          (.done none rest : Scan Fault (Option (Bytes × Bytes))) :=
        (steady_lineEnd _).bind fun _ => steady_done none
      have hne' := hne
      rw [scanLine, if_pos hx] at hne'
      rw [scanLine, List.cons_append, scanLine, if_pos hx, if_pos hx]
      exact hs (x :: rest) more hne'
    · have hs : Steady fun b => (scanName b).bind fun n rest =>
          (scanValue rest).bind fun v rest => .done (some (n, v)) rest :=
        steady_scanName.bind fun n => steady_scanValue.bind fun v => steady_done (some (n, v))
      have hne' := hne
      rw [scanLine, if_neg hx] at hne'
      rw [scanLine, List.cons_append, scanLine, if_neg hx, if_neg hx]
      exact hs (x :: rest) more hne'

/-- The induction is on the room for further fields; each line is steady by itself. -/
theorem steady_scanLines : ∀ room, Steady (scanLines room)
  | 0 => by
    refine steady_scanLine.bind fun l => ?_
    cases l with
    | none => exact steady_done []
    | some f => exact steady_refused _
  | room + 1 => by
    refine steady_scanLine.bind fun l => ?_
    cases l with
    | none => exact steady_done []
    | some f => exact (steady_scanLines room).map (f :: ·)

/-- **The scan of a head is steady.** -/
theorem steady_scan : Steady scan :=
  steady_scanEmptyLines.bind fun _ => steady_scanMethod.bind fun m =>
    steady_scanTarget.bind fun t => steady_scanVersion.bind fun v =>
      (steady_lineEnd _).bind fun _ => (steady_scanLines _).bind fun fs =>
        steady_done (Head.mk m t v fs)

/-! ## 3. Verdicts -/

/-- There is no verdict exactly while the scan waits. -/
theorem verdict?_eq_none_iff {b : Bytes} : verdict? b = none ↔ scan b = .waiting := by
  unfold verdict?
  split <;> simp_all

/-- What a verdict of acceptance rests on. -/
theorem verdict?_eq_ok_iff {b : Bytes} {h : Head} :
    verdict? b = some (.ok h) ↔ (∃ rest, scan b = .done h rest) ∧ h.isAcceptable = true := by
  unfold verdict?
  split <;> rename_i hs <;> simp [hs]
  rename_i h' rest
  by_cases hacc : h'.isAcceptable = true
  · simp only [hacc, if_true, Except.ok.injEq]
    constructor
    · rintro rfl; exact ⟨rfl, hacc⟩
    · exact fun h => h.1
  · simp only [hacc]
    constructor
    · intro h; exact absurd h (by simp)
    · rintro ⟨rfl, h⟩; exact absurd h hacc

/-- **An accepted head stays accepted**, and later octets do not alter it. -/
theorem verdict?_append_of_ok {b : Bytes} {h : Head} (more : Bytes)
    (hb : verdict? b = some (.ok h)) : verdict? (b ++ more) = some (.ok h) := by
  obtain ⟨⟨rest, hs⟩, hacc⟩ := verdict?_eq_ok_iff.mp hb
  refine verdict?_eq_ok_iff.mpr ⟨⟨rest ++ more, ?_⟩, hacc⟩
  rw [steady_scan b more (by simp [hs]), hs]
  rfl

/-- **A rejected head stays rejected.** -/
theorem verdict?_append_of_error {b : Bytes} {why : Rejection} (more : Bytes)
    (hb : verdict? b = some (.error why)) : ∃ why', verdict? (b ++ more) = some (.error why') := by
  have hwait : scan b ≠ .waiting := fun hw => by simp [verdict?_eq_none_iff.mpr hw] at hb
  have hlong := steady_scan b more hwait
  unfold verdict? at hb ⊢
  rw [hlong]
  cases hs : scan b with
  | waiting => exact absurd hs hwait
  | refused e => cases e <;> simp [followedBy]
  | done h rest =>
    by_cases hacc : h.isAcceptable = true
    · simp [hs, hacc] at hb
    · simp [followedBy, hacc]

end Head

end IsolatedSite.Http
