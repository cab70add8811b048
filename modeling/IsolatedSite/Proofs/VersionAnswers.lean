/-
# Answers to unsupported versions

A request is answered as one of an unsupported version if what has arrived of its version, when it
is objected to for the first time, is taken for a later version, and no empty line stands in front
(`unsupported_iff_taken_as_later`).  That is the right answer wherever the request does not mislead
(`IsPlainlyRead`); it need not be otherwise (`not_forall_unsupported_iff_later`).
-/
import IsolatedSite.Proofs.LaterVersions
import IsolatedSite.Proofs.ReadingSteps
import Mathlib.Data.Nat.Find

namespace IsolatedSite.Connection

open IsolatedSite.Http

variable {ε : Type}

/-! ## 1. What arrives of a request -/

/-- What is in hand of a request either is in front of its version or goes beyond. -/
theorem prefix_front_or_beyond {r : RequestLine} {b more : Bytes} (h : b <+: r.octets ++ more) :
    b <+: r.front ∨ ∃ seen, b = r.front ++ seen ∧ seen <+: r.version ++ (r.lineEnd ++ more) := by
  have hshape : r.octets ++ more = r.front ++ (r.version ++ (r.lineEnd ++ more)) := by
    simp [RequestLine.octets]
  rw [hshape] at h
  rcases List.prefix_or_prefix_of_prefix h (List.prefix_append _ _) with hpre | ⟨seen, rfl⟩
  · exact Or.inl hpre
  · exact Or.inr ⟨seen, rfl, (List.prefix_append_right_inj _).mp h⟩

/-- Where no line has ended, no more than the version has arrived. -/
theorem prefix_version {r : RequestLine} {b more : Bytes}
    (h : b <+: r.version ++ (r.lineEnd ++ more)) (hline : ∀ x ∈ b, x ≠ Byte.cr ∧ x ≠ Byte.lf) :
    b <+: r.version := by
  rcases List.prefix_or_prefix_of_prefix h (List.prefix_append _ _) with hpre | ⟨behind, rfl⟩
  · exact hpre
  · have hbehind : behind <+: r.lineEnd ++ more := (List.prefix_append_right_inj _).mp h
    cases behind with
    | nil => simp
    | cons x behind =>
      have hx := hline x (by simp)
      have hends := r.lineEnd_mem
      simp only [lineEnds, List.mem_cons, List.not_mem_nil, or_false] at hends
      rcases hends with hends | hends
      · rw [hends] at hbehind
        exact absurd (List.cons_prefix_cons.mp hbehind).1 hx.2
      · rw [hends] at hbehind
        exact absurd (List.cons_prefix_cons.mp hbehind).1 hx.1

theorem firstLine_prefix_version {r : RequestLine} {seen more : Bytes}
    (h : seen <+: r.version ++ (r.lineEnd ++ more)) : Head.firstLine seen <+: r.version := by
  refine prefix_version ((List.takeWhile_prefix _).trans h) fun x hx => ?_
  simpa using List.mem_takeWhile_imp hx

/-- While the version is awaited, its line has not ended. -/
theorem length_lt_of_waiting {r : RequestLine} {seen more : Bytes}
    (h : seen <+: r.version ++ (r.lineEnd ++ more)) (hwait : Head.scanVersion seen = .waiting) :
    (r.front ++ seen).length < r.octets.length := by
  have hstart : seen <+: Head.versionStart := by
    unfold Head.scanVersion at hwait
    split_ifs at hwait with hlong hten heleven hpre
    exact List.isPrefixOf_iff_prefix.mp hpre
  have hbytes : ∀ x ∈ Head.versionStart, x ≠ Byte.cr ∧ x ≠ Byte.lf := by decide +kernel
  have hversion : seen <+: r.version := prefix_version h fun x hx => hbytes x (hstart.mem hx)
  have hle := hversion.length_le
  have hpos := List.length_pos_of_mem r.lf_mem_lineEnd
  simp only [RequestLine.octets, List.length_append]
  omega

/-! ## 2. The objection -/

/-- What has arrived of the version, behind `front`, when it is objected to for the first time. -/
structure FirstForeign (front : Bytes) (s : Incoming ε) (seen : Bytes) : Prop where
  isForeign : Head.IsForeign seen
  arrives : ∃ n, s.held n = front ++ seen ∧
    ∀ m < n, ∀ earlier, s.held m = front ++ earlier → ¬ Head.IsForeign earlier

/-- A version that is foreign is objected to at some time. -/
theorem exists_firstForeign {front seen : Bytes} {s : Incoming ε}
    (h : ∃ n, s.held n = front ++ seen) (hforeign : Head.IsForeign seen) :
    ∃ first, FirstForeign front s first := by
  classical
  have hsome : ∃ n first, s.held n = front ++ first ∧ Head.IsForeign first := by
    obtain ⟨n, hn⟩ := h
    exact ⟨n, seen, hn, hforeign⟩
  obtain ⟨first, hheld, hfirst⟩ := Nat.find_spec hsome
  refine ⟨first, hfirst, Nat.find hsome, hheld, fun m hm earlier hearlier hbad => ?_⟩
  exact Nat.find_min hsome hm ⟨earlier, hearlier, hbad⟩

/-- **Before the objection** nothing settles the reading: in front of the version and while it is
awaited there is no verdict, and too few octets to be too long. -/
theorem not_settles_before {r : RequestLine} {b seen more : Bytes}
    (hlen : r.octets.length ≤ maxHead) (hseen : r.front ++ seen <+: r.octets ++ more)
    (hforeign : Head.IsForeign seen) (hb : b <+: r.front ++ seen)
    (hearlier : ∀ earlier, b = r.front ++ earlier → ¬ Head.IsForeign earlier) : ¬ Settles b := by
  have hopen : Head.scan b = .waiting ∧ b.length < r.octets.length := by
    rcases prefix_front_or_beyond (hb.trans hseen) with hfront | ⟨earlier, rfl, hpre⟩
    · refine ⟨r.scan_of_prefix_front hfront, ?_⟩
      have hle := hfront.length_le
      have hpos := List.length_pos_of_mem r.lf_mem_lineEnd
      simp only [RequestLine.octets, List.length_append]
      omega
    · have hwait : Head.scanVersion earlier = .waiting := by
        obtain ⟨later, rfl⟩ := (List.prefix_append_right_inj _).mp hb
        by_contra hne
        have hlater := Head.steady_scanVersion earlier later hne
        rw [Head.scanVersion_eq_refused_iff.mpr hforeign] at hlater
        exact hearlier earlier rfl
          (Head.scanVersion_eq_refused_iff.mp (Scan.followedBy_eq_refused_iff.mp hlater.symm))
      exact ⟨r.scan_front_eq_waiting hwait, length_lt_of_waiting hpre hwait⟩
  rintro (hverdict | hlong)
  · exact hverdict (Head.verdict?_eq_none_iff.mpr hopen.1)
  · omega

/-- An answer with the status 505 and its message. -/
def IsUnsupported (outcome : HeadOutcome ε) : Prop :=
  ∃ why : Rejection, outcome = .rejected why ∧ why.status = .versionNotSupported ∧
    why.message = "Invalid HTTP version".toList

theorem isUnsupported_iff {outcome : HeadOutcome ε} :
    IsUnsupported outcome ↔ outcome = .rejected .unsupportedVersion := by
  constructor
  · rintro ⟨why, rfl, hstatus, -⟩
    cases why with
    | unsupportedVersion => rfl
    | malformed | unreadableVersion | tooManyFields | tooLong => exact absurd hstatus (by decide)
  · rintro rfl
    exact ⟨_, rfl, rfl, rfl⟩

/-- **The answer to the version** is that to what has arrived of it at the first objection. -/
theorem isUnsupported_iff_firstForeign {r : RequestLine} {more : Bytes} {s : Incoming ε}
    (hs : s.IsPlain) (hunread : s.unread = r.octets ++ more) (hlen : r.octets.length ≤ maxHead) :
    IsUnsupported (readHead s).1 ↔ r.emptyLines = [] ∧
      ∃ seen, FirstForeign r.front s seen ∧ Head.IsTakenAsLater (Head.firstLine seen) := by
  have hheld : ∀ n, s.held n <+: r.octets ++ more := fun n =>
    hunread ▸ Incoming.held_prefix_unread hs n
  have hanswer : ∀ {seen}, r.front ++ seen <+: r.octets ++ more →
      (Head.versionRejection (r.front ++ seen) = .unsupportedVersion ↔
        r.emptyLines = [] ∧ Head.IsTakenAsLater (Head.firstLine seen)) := by
    intro seen hpre
    refine RequestLine.versionRejection_front fun hspace => ?_
    rw [RequestLine.octets, List.append_assoc, List.append_assoc,
      List.prefix_append_right_inj] at hpre
    exact r.space_not_mem ((firstLine_prefix_version hpre).mem hspace)
  rw [isUnsupported_iff, readHead_rejected_iff hs (by decide) (by decide)]
  constructor
  · rintro ⟨n, hverdict, hbefore⟩
    obtain ⟨hscan, hrejection⟩ := Head.verdict?_unsupported_iff.mp hverdict
    rcases prefix_front_or_beyond (hheld n) with hfront | ⟨seen, hseen, -⟩
    · rw [r.scan_of_prefix_front hfront] at hscan
      cases hscan
    · rw [hseen] at hscan hrejection
      obtain ⟨hempty, htaken⟩ := (hanswer (hseen ▸ hheld n)).mp hrejection
      refine ⟨hempty, seen, ⟨r.scan_front_eq_refused_iff.mp hscan, n, hseen, ?_⟩, htaken⟩
      intro m hm earlier hearlier hforeign
      refine hbefore m hm (Or.inl fun hnone => ?_)
      have hwait := Head.verdict?_eq_none_iff.mp hnone
      rw [hearlier, r.scan_front_eq_refused_iff.mpr hforeign] at hwait
      cases hwait
  · rintro ⟨hempty, seen, ⟨hforeign, n, hseen, hearlier⟩, htaken⟩
    have hpre : r.front ++ seen <+: r.octets ++ more := hseen ▸ hheld n
    refine ⟨n, Head.verdict?_unsupported_iff.mpr ?_, fun m hm => ?_⟩
    · rw [hseen]
      exact ⟨r.scan_front_eq_refused_iff.mpr hforeign, (hanswer hpre).mpr ⟨hempty, htaken⟩⟩
    · exact not_settles_before hlen hpre hforeign (hseen ▸ s.held_prefix (Nat.le_of_lt hm))
        (hearlier m hm)

/-! ## 3. Requests that do not mislead -/

/-- Nothing in the request or in its way of arriving misleads: no empty line is in front, in the
version there is neither a line end nor a plus sign, its numbers have 32 bits, and at the first
objection all of it is in hand. -/
structure IsPlainlyRead (r : RequestLine) (s : Incoming ε) : Prop where
  emptyLines_eq : r.emptyLines = []
  ne_of_mem_version : ∀ b ∈ r.version, b ≠ Byte.cr ∧ b ≠ Byte.lf ∧ b ≠ 43
  lt_of_isVersion : ∀ t major minor, r.version = Utf8.encode t →
    Head.IsVersion [[]] major minor t → major < 2 ^ 32 ∧ minor < 2 ^ 32
  whole : ∀ seen, FirstForeign r.front s seen → r.version <+: seen

variable {r : RequestLine} {more : Bytes}

theorem firstLine_eq_version {seen : Bytes}
    (hline : ∀ b ∈ r.version, b ≠ Byte.cr ∧ b ≠ Byte.lf) (hwhole : r.version <+: seen)
    (h : seen <+: r.version ++ (r.lineEnd ++ more)) : Head.firstLine seen = r.version := by
  obtain ⟨behind, rfl⟩ := hwhole
  have hpre := firstLine_prefix_version h
  rw [Head.firstLine_append hline] at hpre ⊢
  exact ((List.prefix_append _ _).eq_of_length_le hpre.length_le).symm

variable {s : Incoming ε}

/-- Of such a request it is the version that is looked at. -/
theorem IsPlainlyRead.firstLine_eq (h : IsPlainlyRead r s) (hs : s.IsPlain)
    (hunread : s.unread = r.octets ++ more) {seen : Bytes} (hseen : FirstForeign r.front s seen) :
    Head.firstLine seen = r.version := by
  obtain ⟨n, hn, -⟩ := hseen.arrives
  have hpre : r.front ++ seen <+: r.octets ++ more :=
    hn ▸ hunread ▸ Incoming.held_prefix_unread hs n
  rw [RequestLine.octets, List.append_assoc, List.append_assoc,
    List.prefix_append_right_inj] at hpre
  refine firstLine_eq_version (fun b hb => ?_) (h.whole seen hseen) hpre
  exact ⟨(h.ne_of_mem_version b hb).1, (h.ne_of_mem_version b hb).2.1⟩

/-- A later version is objected to at some time. -/
theorem exists_firstForeign_of_isLater (hs : s.IsPlain) (hunread : s.unread = r.octets ++ more)
    (hlater : Head.IsLater r.version) : ∃ seen, FirstForeign r.front s seen := by
  obtain ⟨n, hn⟩ := Incoming.exists_held_eq_unread hs
  have hall : s.held n = r.front ++ (r.version ++ (r.lineEnd ++ more)) := by
    rw [hn, hunread]
    simp [RequestLine.octets]
  exact exists_firstForeign ⟨n, hall⟩ (hlater.isForeign.append _)

/-- **The right answer** to a request that does not mislead. -/
theorem IsPlainlyRead.isUnsupported_iff (h : IsPlainlyRead r s) (hs : s.IsPlain)
    (hunread : s.unread = r.octets ++ more) (hlen : r.octets.length ≤ maxHead) :
    IsUnsupported (readHead s).1 ↔ Head.IsLater r.version := by
  have htaken : Head.IsTakenAsLater r.version ↔ Head.IsLater r.version :=
    Head.isTakenAsLater_iff_isLater (fun hmem => (h.ne_of_mem_version 43 hmem).2.2 rfl)
      h.lt_of_isVersion
  rw [isUnsupported_iff_firstForeign hs hunread hlen]
  constructor
  · rintro ⟨-, seen, hseen, hlater⟩
    rw [h.firstLine_eq hs hunread hseen] at hlater
    exact htaken.mp hlater
  · intro hlater
    obtain ⟨seen, hseen⟩ := exists_firstForeign_of_isLater hs hunread hlater
    refine ⟨h.emptyLines_eq, seen, hseen, ?_⟩
    rw [h.firstLine_eq hs hunread hseen]
    exact htaken.mpr hlater

/-- **Unsupported versions.**  Let a request begin with a line of which the octets are within the
limit, whatever stands in the place of the version and whatever follows, and let it arrive in any
pieces.  It is answered as one of an unsupported version exactly if there are no empty lines in
front and what the first line holds of the version, when it is objected to for the first time, is
taken for a later one.  If the request does not mislead, this is the case exactly for the later
versions. -/
theorem unsupported_iff_taken_as_later {cut : List Bytes} (hcut : IsCut cut (r.octets ++ more))
    (hlen : r.octets.length ≤ maxHead) :
    (IsUnsupported (readHead (ε := ε) (.ofPieces cut)).1 ↔ r.emptyLines = [] ∧
      ∃ seen, FirstForeign (ε := ε) r.front (.ofPieces cut) seen ∧
        Head.IsTakenAsLater (Head.firstLine seen)) ∧
    (IsPlainlyRead (ε := ε) r (.ofPieces cut) →
      (IsUnsupported (readHead (ε := ε) (.ofPieces cut)).1 ↔ Head.IsLater r.version)) := by
  have hs : (Incoming.ofPieces cut : Incoming ε).IsPlain := Incoming.isPlain_ofPieces hcut.2
  have hunread : (Incoming.ofPieces cut : Incoming ε).unread = r.octets ++ more := by
    rw [Incoming.unread_ofPieces, hcut.1]
  constructor
  · exact isUnsupported_iff_firstForeign hs hunread hlen
  · intro hplain
    exact hplain.isUnsupported_iff hs hunread hlen

/-- The first line of a request of version 2.0, with or without an empty line in front. -/
def futureLine (emptyLines : List Bytes) (h : ∀ l ∈ emptyLines, l ∈ lineEnds) : RequestLine where
  emptyLines := emptyLines
  method := ascii "GET"
  target := ascii "/"
  version := ascii "HTTP/2.0"
  lineEnd := [Byte.cr, Byte.lf]
  emptyLines_mem := h
  isToken := by decide
  target_ne_nil := by decide
  isTargetByte := by decide +kernel
  target_decodes := by decide
  space_not_mem := by decide
  lineEnd_mem := by decide

theorem isLater_futureLine {emptyLines : List Bytes} (h : ∀ l ∈ emptyLines, l ∈ lineEnds) :
    Head.IsLater (futureLine emptyLines h).version := by
  have hdigit : ∀ {c : Char}, c.isDigit = true →
      Decimal.IsSigned [[]] (Nat.ofDigitChars 10 [c] 0) [c] := by
    intro c hc
    exact ⟨[], [c], rfl, by decide, by simp, by simpa using hc, rfl⟩
  have hversion : (futureLine emptyLines h).version = ascii "HTTP/2.0" := rfl
  exact ⟨"HTTP/2.0".toList, 2, 0, hversion.trans (by decide),
    ⟨['2'], ['0'], rfl, hdigit (by decide), hdigit (by decide)⟩, by decide⟩

/-- The request arrives in two pieces, and the version is cut by them where nothing is said against
it yet. -/
theorem isPlainlyRead_futureLine : IsPlainlyRead (ε := Unit) (futureLine [] (by simp))
    (.ofPieces [ascii "GET / HTT", ascii "P/2.0\r\n\r\n"]) where
  emptyLines_eq := rfl
  ne_of_mem_version := by decide +kernel
  lt_of_isVersion := by
    intro t major minor ht hversion
    obtain rfl : t = "HTTP/2.0".toList := Utf8.encode_injective (ht.symm.trans (by decide))
    obtain ⟨m, n, hcut, hm, hn⟩ := hversion.cut
    have hfound : (afterStart? "HTTP/".toList "HTTP/2.0".toList).bind (cutAt '.') =
        some (['2'], ['0']) := by decide
    obtain ⟨rfl, rfl⟩ := Prod.mk.inj (Option.some.inj (hfound.symm.trans hcut))
    obtain rfl : major = 2 := Option.some.inj (hm.symm.trans (by decide))
    obtain rfl : minor = 0 := Option.some.inj (hn.symm.trans (by decide))
    decide
  whole := by
    rintro seen ⟨hforeign, n, hn, -⟩
    match n, hn with
    | 0, hn =>
      have hnil := (List.append_eq_nil_iff.mp hn.symm).1
      exact absurd hnil (by decide)
    | 1, hn =>
      have hheld : (Incoming.ofPieces [ascii "GET / HTT", ascii "P/2.0\r\n\r\n"] :
          Incoming Unit).held 1 = (futureLine [] (by simp)).front ++ ascii "HTT" := by
        decide +kernel
      obtain rfl : ascii "HTT" = seen := List.append_cancel_left (hheld.symm.trans hn)
      exact absurd hforeign (by decide)
    | n + 2, hn =>
      have hheld : (futureLine [] (by simp)).front ++ (futureLine [] (by simp)).version <+:
          (Incoming.ofPieces [ascii "GET / HTT", ascii "P/2.0\r\n\r\n"] : Incoming Unit).held 2 := by
        decide +kernel
      rw [← List.prefix_append_right_inj, ← hn]
      exact hheld.trans (Incoming.held_prefix _ (by omega))

/-- **Version 2.0 is answered** as one that is not supported. -/
theorem unsupported_futureLine :
    IsCut [ascii "GET / HTT", ascii "P/2.0\r\n\r\n"]
        ((futureLine [] (by simp)).octets ++ ascii "\r\n") ∧
      (futureLine [] (by simp)).octets.length ≤ maxHead ∧
      IsUnsupported (readHead (ε := Unit)
        (.ofPieces [ascii "GET / HTT", ascii "P/2.0\r\n\r\n"])).1 := by
  have hcut : IsCut [ascii "GET / HTT", ascii "P/2.0\r\n\r\n"]
      ((futureLine [] (by simp)).octets ++ ascii "\r\n") := ⟨by decide, by decide⟩
  have hlen : (futureLine [] (by simp)).octets.length ≤ maxHead := by decide
  exact ⟨hcut, hlen, ((unsupported_iff_taken_as_later hcut hlen).2 isPlainlyRead_futureLine).mpr
    (isLater_futureLine _)⟩

/-- **Not every later version is answered** as one: an empty line in front hides it. -/
theorem not_forall_unsupported_iff_later :
    ¬ ∀ (r : RequestLine) (more : Bytes) (cut : List Bytes), IsCut cut (r.octets ++ more) →
      r.octets.length ≤ maxHead →
      (IsUnsupported (readHead (ε := Unit) (.ofPieces cut)).1 ↔ Head.IsLater r.version) := by
  intro hall
  have houtcome : (readHead (ε := Unit) (.ofPieces [ascii "\r\nGET / HTTP/2.0\r\n\r\n"])).1 =
      .rejected .unreadableVersion := by decide +kernel
  have hcut : IsCut [ascii "\r\nGET / HTTP/2.0\r\n\r\n"]
      ((futureLine [[Byte.cr, Byte.lf]] (by decide)).octets ++ ascii "\r\n") :=
    ⟨by decide, by decide⟩
  have hunsupported := (hall _ _ _ hcut (by decide)).mpr (isLater_futureLine _)
  rw [isUnsupported_iff, houtcome] at hunsupported
  exact absurd hunsupported (by decide)

/-- What has arrived of the version when the second piece is awaited is no version yet. -/
example : (readHead (ε := Unit) (.ofPieces [ascii "GET / HTTP/2", ascii ".0\r\n\r\n"])).1 =
    .rejected .unreadableVersion := by decide +kernel

/-- A plus sign is let through. -/
example : (readHead (ε := Unit) (.ofPieces [ascii "GET / HTTP/+2.0\r\n\r\n"])).1 =
    .rejected .unsupportedVersion := by decide +kernel

/-- A number of more than 32 bits is not read. -/
example : (readHead (ε := Unit) (.ofPieces [ascii "GET / HTTP/4294967296.0\r\n\r\n"])).1 =
    .rejected .unreadableVersion := by decide +kernel

end IsolatedSite.Connection
