/-
# Versions that are not supported

A request of a later version, `HTTP/2.0` and up, should be answered as one that is not supported
(`Head.IsLater`).  What is looked at, though, is not the version that was scanned.  When the scan
objects to a version, everything that is in hand is read once more from its start: up to its first
line end, and there behind the last space (`versionRejection`).  So a version is not found behind an
empty line, it is only what has arrived of it by then, and its numbers are those that the reader of
numbers takes, with a plus sign or without one and below 2^32 (`Head.IsTakenAsLater`).
`versionRejection_front` says that nothing else makes a difference.
-/
import IsolatedSite.Proofs.AsciiOctets
import IsolatedSite.Proofs.Cutting
import IsolatedSite.Proofs.Numerals
import IsolatedSite.Proofs.RequestLines
import IsolatedSite.Proofs.WellFormedOctets

namespace IsolatedSite

/-! ## 1. Taking apart -/

/-- What is well formed behind a text is a text. -/
theorem Utf8.decode?_encode_append {t line : Text} {b : Bytes} :
    decode? (encode t ++ b) = some line ↔ ∃ rest, decode? b = some rest ∧ line = t ++ rest := by
  constructor
  · intro h
    have hrun := run_of_decode? h
    rw [run_encode] at hrun
    obtain ⟨front, rest, rfl, hfront, hrest⟩ := List.append_eq_map_iff.mp hrun
    obtain rfl : front = t := List.map_injective_iff.mpr (fun _ _ => Option.some.inj) hfront
    exact ⟨rest, decode?_of_run hrest.symm, rfl⟩
  · rintro ⟨rest, hrest, rfl⟩
    rw [decode?_eq_some_iff.mp hrest, ← encode_append]
    exact decode?_encode _

namespace Http.Head

/-! ## 2. Versions with two numbers -/

/-- A version `HTTP/M.N`, where both numbers may have one of `signs` in front. -/
def IsVersion (signs : List Text) (major minor : Nat) (t : Text) : Prop :=
  ∃ m n, t = "HTTP/".toList ++ (m ++ '.' :: n) ∧ Decimal.IsSigned signs major m ∧
    Decimal.IsSigned signs minor n

/-- A later version: two numbers in digits, the first of them two or more. -/
def IsLater (version : Bytes) : Prop :=
  ∃ t major minor, version = Utf8.encode t ∧ IsVersion [[]] major minor t ∧ 2 ≤ major

/-- What is taken for a later version: a plus sign is let through, and the numbers have 32 bits. -/
def IsTakenAsLater (version : Bytes) : Prop :=
  ∃ t major minor, version = Utf8.encode t ∧ IsVersion [[], ['+']] major minor t ∧ 2 ≤ major ∧
    major < 2 ^ 32 ∧ minor < 2 ^ 32

/-- A number of a version holds no dot. -/
theorem dot_not_mem {signs : List Text} (hsigns : ∀ sign ∈ signs, '.' ∉ sign) {n : Nat} {t : Text}
    (h : Decimal.IsSigned signs n t) : '.' ∉ t := by
  obtain ⟨sign, digits, rfl, hsign, -, hdigits, -⟩ := h
  intro hmem
  rcases List.mem_append.mp hmem with hmem | hmem
  · exact hsigns sign hsign hmem
  · exact absurd (hdigits '.' hmem) (by decide)

theorem majorVersion?_eq_some_iff {t : Text} {major : Nat} : majorVersion? t = some major ↔
    ∃ minor, IsVersion [[], ['+']] major minor t ∧ major < 2 ^ 32 ∧ minor < 2 ^ 32 := by
  have hsteps : majorVersion? t = (afterStart? "HTTP/".toList t).bind fun numbers =>
      (cutAt '.' numbers).bind fun p => (Decimal.unsigned? (2 ^ 32) p.2).bind fun _ =>
        Decimal.unsigned? (2 ^ 32) p.1 := rfl
  simp only [hsteps, Option.bind_eq_some_iff, afterStart?_eq_some_iff, Prod.exists,
    Decimal.unsigned?_eq_some_iff]
  constructor
  · rintro ⟨numbers, rfl, m, n, hcut, minor, ⟨hn, hminor⟩, hm, hmajor⟩
    obtain rfl := eq_append_of_cutAt hcut
    exact ⟨minor, ⟨m, n, rfl, hm, hn⟩, hmajor, hminor⟩
  · rintro ⟨minor, ⟨m, n, rfl, hm, hn⟩, hmajor, hminor⟩
    have hdot : '.' ∉ m := dot_not_mem (by decide) hm
    exact ⟨_, rfl, m, n, cutAt_append hdot n, minor, ⟨hn, hminor⟩, hm, hmajor⟩

/-- A number of a version is a text of ASCII characters. -/
theorem lt_of_isSigned {n : Nat} {t : Text} (h : Decimal.IsSigned [[]] n t) :
    ∀ c ∈ t, c.toNat < 128 := by
  obtain ⟨sign, digits, rfl, hsign, -, hdigits, -⟩ := h
  obtain rfl : sign = [] := by simpa using hsign
  intro c hc
  have := (Decimal.isPrintable_of_isDigit (hdigits c hc)).2
  omega

theorem IsVersion.lt {major minor : Nat} {t : Text} (h : IsVersion [[]] major minor t) :
    ∀ c ∈ t, c.toNat < 128 := by
  obtain ⟨m, n, rfl, hm, hn⟩ := h
  have hname : "HTTP/".toList.all (fun c => c.toNat < 128) = true := by decide
  intro c hc
  simp only [List.mem_append, List.mem_cons] at hc
  rcases hc with hc | hc | rfl | hc
  · exact of_decide_eq_true (List.all_eq_true.mp hname c hc)
  · exact lt_of_isSigned hm c hc
  · decide
  · exact lt_of_isSigned hn c hc

theorem IsVersion.le_length {signs : List Text} {major minor : Nat} {t : Text}
    (h : IsVersion signs major minor t) : 8 ≤ t.length := by
  obtain ⟨m, n, rfl, ⟨_, ds, rfl, -, hds, -⟩, ⟨_, es, rfl, -, hes, -⟩⟩ := h
  have hds := List.length_pos_iff.mpr hds
  have hes := List.length_pos_iff.mpr hes
  simp only [String.reduceToList, List.length_append, List.length_cons, List.length_nil]
  omega

/-- A later version does not begin as those do that are served: its first number is not the digit
one alone. -/
theorem IsVersion.take_ne {major minor : Nat} {t : Text} (h : IsVersion [[]] major minor t)
    (hmajor : 2 ≤ major) (last : Char) : t.take 8 ≠ "HTTP/1.".toList ++ [last] := by
  obtain ⟨m, n, rfl, hm, -⟩ := h
  have hdot := dot_not_mem (by decide) hm
  obtain ⟨sign, digits, rfl, hsign, hne, -, rfl⟩ := hm
  obtain rfl : sign = [] := by simpa using hsign
  obtain ⟨c, rest, rfl⟩ := List.exists_cons_of_ne_nil hne
  intro heq
  have hnumber : (c :: (rest ++ '.' :: n)).take 3 = ['1', '.', last] := by
    simpa [List.take_append] using heq
  cases rest with
  | nil =>
    obtain rfl : c = '1' := (List.cons.inj hnumber).1
    have hone : Nat.ofDigitChars 10 ['1'] 0 = 1 := by decide
    omega
  | cons d rest =>
    obtain rfl : d = '.' := (List.cons.inj (List.cons.inj hnumber).2).1
    exact hdot (by simp)

/-- A later version is not served, and does not begin with one that is. -/
theorem IsLater.isForeign {version : Bytes} (h : IsLater version) : IsForeign version := by
  obtain ⟨t, major, minor, rfl, hversion, hmajor⟩ := h
  have htext : asciiText (Utf8.encode t) = t := by
    rw [Utf8.encode_eq_map hversion.lt, asciiText_map hversion.lt]
  have htake : ∀ served ∈ servedVersions, (Utf8.encode t).take 8 ≠ served := by
    intro served hserved heq
    have hstart : ∃ last, asciiText served = "HTTP/1.".toList ++ [last] := by
      simp only [servedVersions, List.mem_cons, List.not_mem_nil, or_false] at hserved
      rcases hserved with rfl | rfl
      · exact ⟨'0', by decide⟩
      · exact ⟨'1', by decide⟩
    obtain ⟨last, hlast⟩ := hstart
    refine hversion.take_ne hmajor last ?_
    rw [← hlast, ← heq, asciiText, List.map_take]
    exact congrArg (List.take 8) htext.symm
  have hlong : 8 ≤ (Utf8.encode t).length := by
    rw [Utf8.encode_eq_map hversion.lt, List.length_map]
    exact hversion.le_length
  intro served hserved
  have hlength : served.length = 8 := by
    simp only [servedVersions, List.mem_cons, List.not_mem_nil, or_false] at hserved
    rcases hserved with rfl | rfl <;> decide
  constructor
  · intro hpre
    refine htake served hserved ?_
    rw [hpre.eq_of_length_le (by omega), ← hlength, List.take_length]
  · intro hpre
    refine htake served hserved ?_
    rw [← hlength]
    exact (List.prefix_iff_eq_take.mp hpre).symm

/-- The two numbers of a version are found again. -/
theorem IsVersion.cut {major minor : Nat} {t : Text} (h : IsVersion [[]] major minor t) :
    ∃ m n, (afterStart? "HTTP/".toList t).bind (cutAt '.') = some (m, n) ∧
      Decimal.value? m = some major ∧ Decimal.value? n = some minor := by
  have hvalue : ∀ {k : Nat} {s : Text}, Decimal.IsSigned [[]] k s → Decimal.value? s = some k := by
    rintro k s ⟨sign, digits, rfl, hsign, hdigits⟩
    obtain rfl : sign = [] := by simpa using hsign
    exact Decimal.value?_eq_some_iff.mpr hdigits
  obtain ⟨m, n, rfl, hm, hn⟩ := h
  refine ⟨m, n, ?_, hvalue hm, hvalue hn⟩
  rw [afterStart?_eq_some_iff.mpr rfl]
  exact cutAt_append (dot_not_mem (by decide) hm) n

/-- **What is taken for a later version is one**, and the other way round, where there is no plus
sign and the numbers have 32 bits. -/
theorem isTakenAsLater_iff_isLater {version : Bytes} (hplus : 43 ∉ version)
    (hlt : ∀ t major minor, version = Utf8.encode t → IsVersion [[]] major minor t →
      major < 2 ^ 32 ∧ minor < 2 ^ 32) : IsTakenAsLater version ↔ IsLater version := by
  have hunsigned : ∀ {k : Nat} {s : Text}, '+' ∉ s → Decimal.IsSigned [[], ['+']] k s →
      Decimal.IsSigned [[]] k s := by
    rintro k s hs ⟨sign, digits, rfl, hsign, hdigits⟩
    simp only [List.mem_cons, List.not_mem_nil, or_false] at hsign
    rcases hsign with rfl | rfl
    · exact ⟨[], digits, rfl, List.mem_singleton.mpr rfl, hdigits⟩
    · exact absurd List.mem_cons_self hs
  have hsigned : ∀ {k : Nat} {s : Text}, Decimal.IsSigned [[]] k s →
      Decimal.IsSigned [[], ['+']] k s := by
    rintro k s ⟨sign, digits, rfl, hsign, hdigits⟩
    exact ⟨sign, digits, rfl, List.mem_cons.mpr (Or.inl (List.mem_singleton.mp hsign)), hdigits⟩
  constructor
  · rintro ⟨t, major, minor, rfl, ⟨m, n, rfl, hm, hn⟩, hmajor, -⟩
    have hascii : (43 : UInt8) ≤ 0x7F := by decide
    have hmem : '+' ∉ "HTTP/".toList ++ (m ++ '.' :: n) := fun h =>
      hplus ((Utf8.mem_encode_iff hascii).mpr h)
    simp only [List.mem_append, List.mem_cons, not_or] at hmem
    exact ⟨_, major, minor, rfl, ⟨m, n, rfl, hunsigned hmem.2.1 hm, hunsigned hmem.2.2.2 hn⟩,
      hmajor⟩
  · rintro ⟨t, major, minor, rfl, hversion, hmajor⟩
    have hbounds := hlt t major minor rfl hversion
    obtain ⟨m, n, rfl, hm, hn⟩ := hversion
    exact ⟨_, major, minor, rfl, ⟨m, n, rfl, hsigned hm, hsigned hn⟩, hmajor, hbounds⟩

/-! ## 3. The answer to a bad version -/

/-- Octets in front that end no line are on the first line. -/
theorem firstLine_append {front : Bytes} (h : ∀ b ∈ front, b ≠ Byte.cr ∧ b ≠ Byte.lf)
    (rest : Bytes) : firstLine (front ++ rest) = front ++ firstLine rest :=
  List.takeWhile_append_of_pos fun b hb => by simp [h b hb]

theorem versionRejection_eq_iff {b : Bytes} : versionRejection b = .unsupportedVersion ↔
    ∃ line, Utf8.decode? (firstLine b) = some line ∧
      ∃ major, majorVersion? (afterLast ' ' line) = some major ∧ 2 ≤ major := by
  have hbind : ∀ major : Nat, ((Utf8.decode? (firstLine b)).bind fun line =>
      majorVersion? (afterLast ' ' line)) = some major ↔ ∃ line,
        Utf8.decode? (firstLine b) = some line ∧ majorVersion? (afterLast ' ' line) = some major :=
    fun _ => Option.bind_eq_some_iff
  unfold versionRejection
  split
  · rename_i major hmajor
    obtain ⟨line, hline, hnumber⟩ := (hbind major).mp hmajor
    constructor
    · intro h
      refine ⟨line, hline, major, hnumber, ?_⟩
      by_contra hlt
      simp [hlt] at h
    · rintro ⟨line', hline', major', hnumber', hle⟩
      obtain rfl : line = line' := Option.some.inj (hline.symm.trans hline')
      obtain rfl : major = major' := Option.some.inj (hnumber.symm.trans hnumber')
      rw [if_pos hle]
  · rename_i hnone
    refine iff_of_false (by simp) ?_
    rintro ⟨line, hline, major, hnumber, -⟩
    rw [(hbind major).mpr ⟨line, hline, hnumber⟩] at hnone
    cases hnone

theorem verdict?_unsupported_iff {b : Bytes} :
    verdict? b = some (.error .unsupportedVersion) ↔
      scan b = .refused .version ∧ versionRejection b = .unsupportedVersion := by
  unfold verdict?
  cases hscan : scan b with
  | waiting => simp
  | refused fault => cases fault <;> simp
  | done h rest => by_cases hacc : h.isAcceptable = true <;> simp [hacc]

end Http.Head

namespace Http.RequestLine

open Head

theorem byte_of_isTokenByte {b : UInt8} (h : Http.isTokenByte b = true) :
    b ≤ 0x7F ∧ b ≠ Byte.cr ∧ b ≠ Byte.lf :=
  Percent.forall_octet
    (P := fun b => Http.isTokenByte b = true → b ≤ 0x7F ∧ b ≠ Byte.cr ∧ b ≠ Byte.lf)
    (by decide +kernel) b h

theorem byte_of_isTargetByte {b : UInt8} (h : Head.isTargetByte b = true) :
    b ≠ Byte.cr ∧ b ≠ Byte.lf :=
  Percent.forall_octet (P := fun b => Head.isTargetByte b = true → b ≠ Byte.cr ∧ b ≠ Byte.lf)
    (by decide +kernel) b h

variable {r : RequestLine}

/-- Without empty lines, what stands in front of the version is one line. -/
theorem ne_of_mem_front (hempty : r.emptyLines = []) :
    ∀ b ∈ r.front, b ≠ Byte.cr ∧ b ≠ Byte.lf := by
  intro b hb
  simp only [front, hempty, List.flatten_nil, List.nil_append, List.mem_append, List.mem_cons,
    List.not_mem_nil, or_false] at hb
  rcases hb with hb | rfl | hb | rfl
  · exact (byte_of_isTokenByte (r.isTokenByte b hb)).2
  · decide
  · exact byte_of_isTargetByte (r.isTargetByte b hb)
  · decide

/-- And it is a text that ends with a space. -/
theorem exists_front_eq_encode (hempty : r.emptyLines = []) :
    ∃ t, r.front = Utf8.encode (t ++ [' ']) := by
  obtain ⟨target, htarget⟩ := Option.isSome_iff_exists.mp r.target_decodes
  have hmethod : Utf8.encode (asciiText r.method) = r.method :=
    Utf8.encode_asciiText fun b hb => (byte_of_isTokenByte (r.isTokenByte b hb)).1
  refine ⟨asciiText r.method ++ ' ' :: target, ?_⟩
  rw [List.append_assoc, List.cons_append, Utf8.encode_append, hmethod, Utf8.encode_cons,
    Utf8.encode_append, ← Utf8.decode?_eq_some_iff.mp htarget, front, hempty]
  rfl

/-- **The answer to what is in hand** when the version is objected to: behind an empty line no
version is found, and without one it is what the first line holds of it. -/
theorem versionRejection_front {seen : Bytes} (hspace : Byte.space ∉ firstLine seen) :
    versionRejection (r.front ++ seen) = .unsupportedVersion ↔
      r.emptyLines = [] ∧ IsTakenAsLater (firstLine seen) := by
  rw [versionRejection_eq_iff]
  by_cases hempty : r.emptyLines = []
  · obtain ⟨t, ht⟩ := exists_front_eq_encode hempty
    rw [firstLine_append (ne_of_mem_front hempty), ht]
    have hlast : ∀ {rest}, Utf8.decode? (firstLine seen) = some rest →
        afterLast ' ' (t ++ [' '] ++ rest) = rest := by
      intro rest hrest
      have hmem : ' ' ∉ rest := by
        intro hmem
        have hascii : Byte.space ≤ 0x7F := by decide
        refine hspace ?_
        rw [Utf8.decode?_eq_some_iff.mp hrest]
        exact (Utf8.mem_encode_iff hascii).mpr hmem
      rw [List.append_assoc, List.singleton_append]
      exact afterLast_append t hmem
    constructor
    · rintro ⟨line, hline, major, hmajor, hle⟩
      obtain ⟨rest, hrest, rfl⟩ := Utf8.decode?_encode_append.mp hline
      rw [hlast hrest] at hmajor
      obtain ⟨minor, hversion, hlt⟩ := majorVersion?_eq_some_iff.mp hmajor
      exact ⟨hempty, rest, major, minor, Utf8.decode?_eq_some_iff.mp hrest, hversion, hle, hlt⟩
    · rintro ⟨-, rest, major, minor, hrest, hversion, hle, hlt⟩
      have hdecode := Utf8.decode?_eq_some_iff.mpr hrest
      refine ⟨_, Utf8.decode?_encode_append.mpr ⟨rest, hdecode, rfl⟩, major, ?_, hle⟩
      rw [hlast hdecode]
      exact majorVersion?_eq_some_iff.mpr ⟨minor, hversion, hlt⟩
  · refine iff_of_false ?_ fun h => hempty h.1
    obtain ⟨l, ls, hls⟩ := List.exists_cons_of_ne_nil hempty
    have hl := r.emptyLines_mem l (by simp [hls])
    have hnil : firstLine (r.front ++ seen) = [] := by
      simp only [lineEnds, List.mem_cons, List.not_mem_nil, or_false] at hl
      rcases hl with rfl | rfl <;> simp [front, hls, firstLine]
    rintro ⟨line, hline, major, hmajor, -⟩
    rw [hnil] at hline
    obtain rfl : [] = line := Option.some.inj hline
    cases hmajor

end Http.RequestLine

end IsolatedSite
