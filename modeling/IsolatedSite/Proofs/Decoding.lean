/-
# Reading back what was encoded

Both encodings are undone by their readers, and neither reader carries anything over an ASCII
octet that belongs to no escape: an open character or an unfinished escape in front of a slash is
closed by it, so a text with a slash in it is decoded in two independent parts
(`decodeText_append_slash`).  A name that was escaped is decoded to itself whatever it is made of
(`decodeText_encode`).

The two readers are machines that are run octet by octet, so everything is said about runs: what a
run does with the octets of one character or of one escape in front of any others, and then, by
induction over the text, with all of them.
-/
import IsolatedSite.Proofs.PlainText
import IsolatedSite.Text.Percent

namespace IsolatedSite

/-! ## 1. Characters -/

namespace Utf8

theorem encode_append (s t : Text) : encode (s ++ t) = encode s ++ encode t :=
  List.flatMap_append

theorem encode_cons (c : Char) (t : Text) : encode (c :: t) = String.utf8EncodeChar c ++ encode t :=
  List.flatMap_cons

theorem toNat_ofNat_of_lt {n : Nat} (h : n < 128) : (Char.ofNat n).toNat = n := by
  have hall : ∀ n < 128, (Char.ofNat n).toNat = n := by decide +kernel
  exact hall n h

theorem toNat_lt_of_ascii {b : UInt8} (hb : b ≤ 0x7F) : b.toNat < 128 :=
  Nat.lt_succ_of_le (UInt8.le_iff_toNat_le.mp hb)

/-- ASCII octets are their own encoding. -/
theorem encode_asciiText {b : Bytes} (h : ∀ x ∈ b, x ≤ 0x7F) : encode (asciiText b) = b := by
  have hnat : ∀ x ∈ b, (Char.ofNat x.toNat).toNat = x.toNat := fun x hx =>
    toNat_ofNat_of_lt (toNat_lt_of_ascii (h x hx))
  have hascii : ∀ c ∈ asciiText b, c.toNat < 128 := by
    intro c hc
    obtain ⟨x, hx, rfl⟩ := List.mem_map.mp hc
    rw [hnat x hx]
    exact toNat_lt_of_ascii (h x hx)
  rw [encode_eq_map hascii, asciiText, List.map_map]
  refine (List.map_congr_left fun x hx => ?_).trans (List.map_id b)
  rw [Function.comp_apply, hnat x hx]
  exact UInt8.ofNat_toNat

theorem run_of_start {b : UInt8} {s : State} (h : start b = ([], s)) (rest : Bytes) :
    run .idle (b :: rest) = run s rest := by
  rw [run, step, h, List.nil_append]

theorem run_of_ascii {b : UInt8} (h : b ≤ 0x7F) (rest : Bytes) :
    run .idle (b :: rest) = some (Char.ofNat b.toNat) :: run .idle rest := by
  rw [run, step, start, if_pos h]
  rfl

/-- The first octet of a character of two. -/
theorem start_of_two {n : Nat} (hlow : 2 ≤ n) (hhigh : n < 32) :
    start (UInt8.ofNat (n + 192)) = ([], .inside 0 0x80 0xBF n) := by
  have hall : ∀ n < 32, 2 ≤ n →
      start (UInt8.ofNat (n + 192)) = ([], .inside 0 0x80 0xBF n) := by decide +kernel
  exact hall n hhigh hlow

/-- The first octet of a character of three.  It rules out what two could hold, and surrogates. -/
theorem start_of_three {n : Nat} (h : n < 16) : start (UInt8.ofNat (n + 224)) =
    ([], .inside 1 (if n = 0 then 0xA0 else 0x80) (if n = 13 then 0x9F else 0xBF) n) := by
  have hall : ∀ n < 16, start (UInt8.ofNat (n + 224)) =
      ([], .inside 1 (if n = 0 then 0xA0 else 0x80) (if n = 13 then 0x9F else 0xBF) n) := by
    decide +kernel
  exact hall n h

/-- The first octet of a character of four.  It rules out what three could hold, and what no
character has. -/
theorem start_of_four {n : Nat} (h : n < 5) : start (UInt8.ofNat (n + 240)) =
    ([], .inside 2 (if n = 0 then 0x90 else 0x80) (if n = 4 then 0x8F else 0xBF) n) := by
  have hall : ∀ n < 5, start (UInt8.ofNat (n + 240)) =
      ([], .inside 2 (if n = 0 then 0x90 else 0x80) (if n = 4 then 0x8F else 0xBF) n) := by
    decide +kernel
  exact hall n h

/-- The six bits of a continuation octet lie in the range that is asked for. -/
structure Continues (low high : UInt8) (n : Nat) : Prop where
  lt : n < 64
  low_le : low.toNat ≤ n + 128
  le_high : n + 128 ≤ high.toNat

theorem continues_of_lt {n : Nat} (h : n < 64) : Continues 0x80 0xBF n :=
  ⟨h, Nat.le_add_left 128 n, Nat.add_le_of_le_sub (by decide) (Nat.le_of_lt_succ h)⟩

theorem step_continuation {low high : UInt8} {n : Nat} (h : Continues low high n)
    (owed value : Nat) :
    step (.inside owed low high value) (UInt8.ofNat (n + 128)) =
      match owed with
      | 0 => ([some (Char.ofNat (value * 64 + n))], .idle)
      | owed + 1 => ([], .inside owed 0x80 0xBF (value * 64 + n)) := by
  have hlt := h.lt
  have hnat : (UInt8.ofNat (n + 128)).toNat = n + 128 := by
    rw [UInt8.toNat_ofNat']
    omega
  have hrange : low ≤ UInt8.ofNat (n + 128) ∧ UInt8.ofNat (n + 128) ≤ high := by
    simp only [UInt8.le_iff_toNat_le, hnat]
    exact ⟨h.low_le, h.le_high⟩
  have hbits : (UInt8.ofNat (n + 128)).toNat - 0x80 = n := by omega
  cases owed <;> simp only [step, if_pos hrange, hbits]

/-- A continuation octet adds six bits. -/
theorem run_of_continuation {low high : UInt8} {n : Nat} (h : Continues low high n)
    (owed value : Nat) (rest : Bytes) :
    run (.inside (owed + 1) low high value) (UInt8.ofNat (n + 128) :: rest) =
      run (.inside owed 0x80 0xBF (value * 64 + n)) rest := by
  rw [run, step_continuation h, List.nil_append]

/-- The last continuation octet ends the character. -/
theorem run_of_last {low high : UInt8} {n : Nat} (h : Continues low high n) (value : Nat)
    (rest : Bytes) :
    run (.inside 0 low high value) (UInt8.ofNat (n + 128) :: rest) =
      some (Char.ofNat (value * 64 + n)) :: run .idle rest := by
  rw [run, step_continuation h, List.singleton_append]

/-- **The octets of a character** are read as the character, whatever follows them.  The cases are
those of the number of its octets. -/
theorem run_utf8EncodeChar (c : Char) (rest : Bytes) :
    run .idle (String.utf8EncodeChar c ++ rest) = some c :: run .idle rest := by
  have hvalid : c.toNat < 0xD800 ∨ 0xDFFF < c.toNat ∧ c.toNat < 0x110000 := c.valid
  have hchar : Char.ofNat c.toNat = c := Char.ofNat_toNat c
  have hval : c.val.toNat = c.toNat := rfl
  simp only [String.utf8EncodeChar, hval]
  generalize c.toNat = v at hvalid hchar
  by_cases hone : v ≤ 0x7F
  · have hnat : (UInt8.ofNat v).toNat = v := by
      rw [UInt8.toNat_ofNat']
      omega
    rw [if_pos hone, List.singleton_append,
      run_of_ascii (UInt8.le_iff_toNat_le.mpr (by rwa [hnat])), hnat, hchar]
  rw [if_neg hone]
  by_cases htwo : v ≤ 0x7FF
  · have hsum : v / 64 % 32 * 64 + v % 64 = v := by omega
    rw [if_pos htwo, List.cons_append, run_of_start (start_of_two (by omega) (by omega)),
      List.singleton_append, run_of_last (continues_of_lt (by omega)), hsum, hchar]
  rw [if_neg htwo]
  by_cases hthree : v ≤ 0xFFFF
  · have hsum : (v / 4096 % 16 * 64 + v / 64 % 64) * 64 + v % 64 = v := by omega
    have hsecond : Continues (if v / 4096 % 16 = 0 then 0xA0 else 0x80)
        (if v / 4096 % 16 = 13 then 0x9F else 0xBF) (v / 64 % 64) :=
      ⟨by omega, by split <;> simp; omega, by split <;> simp <;> omega⟩
    rw [if_pos hthree, List.cons_append, run_of_start (start_of_three (by omega)),
      List.cons_append, run_of_continuation hsecond, List.singleton_append,
      run_of_last (continues_of_lt (by omega)), hsum, hchar]
  · have hsum : ((v / 262144 % 8 * 64 + v / 4096 % 64) * 64 + v / 64 % 64) * 64 + v % 64 = v := by
      omega
    have hsecond : Continues (if v / 262144 % 8 = 0 then 0x90 else 0x80)
        (if v / 262144 % 8 = 4 then 0x8F else 0xBF) (v / 4096 % 64) :=
      ⟨by omega, by split <;> simp; omega, by split <;> simp <;> omega⟩
    rw [if_neg hthree, List.cons_append, run_of_start (start_of_four (by omega)),
      List.cons_append, run_of_continuation hsecond, List.cons_append,
      run_of_continuation (continues_of_lt (by omega)), List.singleton_append,
      run_of_last (continues_of_lt (by omega)), hsum, hchar]

/-- The octets of a text are read as the text. -/
theorem run_encode (t : Text) (rest : Bytes) :
    run .idle (encode t ++ rest) = t.map some ++ run .idle rest := by
  induction t with
  | nil => rfl
  | cons c t ih =>
    rw [encode_cons, List.append_assoc, run_utf8EncodeChar, ih]
    rfl

theorem run_encode_nil (t : Text) : run .idle (encode t) = t.map some := by
  simpa [run, finish] using run_encode t []

/-- **What was encoded is decoded.** -/
theorem decode?_encode (t : Text) : decode? (encode t) = some t := decode?_of_run (run_encode_nil t)

/-- Events without a malformed one are those of a text. -/
theorem eq_map_some_of_mapM {events : List Event} {t : Text} (h : events.mapM id = some t) :
    events = t.map some := by
  induction events generalizing t with
  | nil =>
    obtain rfl : t = [] := by simpa using h.symm
    rfl
  | cons e events ih =>
    rw [List.mapM_cons] at h
    obtain ⟨c, hc, h⟩ := Option.bind_eq_some_iff.mp h
    obtain ⟨rest, hrest, h⟩ := Option.bind_eq_some_iff.mp h
    obtain rfl : c :: rest = t := Option.some.inj h
    obtain rfl : e = some c := hc
    rw [ih hrest]
    rfl

theorem run_of_decode? {b : Bytes} {t : Text} (h : decode? b = some t) :
    run .idle b = t.map some := eq_map_some_of_mapM h

theorem decodeLossy_encode (t : Text) : decodeLossy (encode t) = t := by
  rw [decodeLossy, run_encode_nil, List.map_map]
  exact List.map_id t

/-- Different texts have different octets. -/
theorem encode_injective {s t : Text} (h : encode s = encode t) : s = t := by
  rw [← decodeLossy_encode s, h, decodeLossy_encode]

/-! ## 2. Octets that nothing is carried over -/

/-- A state in which an ASCII octet continues nothing. -/
def State.IsWide : State → Prop
  | .idle => True
  | .inside _ low _ _ => 0x80 ≤ low

theorem isWide_start (b : UInt8) : (start b).2.IsWide := by
  unfold start
  split_ifs <;> simp [State.IsWide]

theorem isWide_step (s : State) (b : UInt8) : (step s b).2.IsWide := by
  cases s with
  | idle => exact isWide_start b
  | inside owed low high value =>
    by_cases h : low ≤ b ∧ b ≤ high
    · cases owed <;> simp [step, h, State.IsWide]
    · simp only [step, if_neg h]
      exact isWide_start b

/-- **An ASCII octet stands alone**: an open character in front of it is closed, and what follows it
is read from the beginning.  The induction is on the octets in front. -/
theorem run_append_ascii {s : State} (hs : s.IsWide) {b : UInt8} (hb : b ≤ 0x7F)
    (front rest : Bytes) :
    run s (front ++ b :: rest) = run s front ++ some (Char.ofNat b.toNat) :: run .idle rest := by
  induction front generalizing s with
  | nil =>
    cases s with
    | idle => exact run_of_ascii hb rest
    | inside owed low high value =>
      have hnot : ¬ (low ≤ b ∧ b ≤ high) := fun h =>
        absurd (UInt8.le_trans hs (UInt8.le_trans h.1 hb)) (by decide)
      simp only [List.nil_append, run, step, if_neg hnot, start, if_pos hb]
      rfl
  | cons x front ih =>
    rw [List.cons_append, run, ih (isWide_step s x), run, List.append_assoc]

theorem decodeLossy_append_ascii {b : UInt8} (hb : b ≤ 0x7F) (front rest : Bytes) :
    decodeLossy (front ++ b :: rest) =
      decodeLossy front ++ Char.ofNat b.toNat :: decodeLossy rest := by
  have hidle : State.IsWide .idle := trivial
  rw [decodeLossy, run_append_ascii hidle hb, List.map_append]
  rfl

end Utf8

/-! ## 3. Escapes -/

namespace Percent

/-- What is checked for every number below 256 is true of every octet. -/
theorem forall_octet {P : UInt8 → Prop} (h : ∀ n < 256, P (UInt8.ofNat n)) (b : UInt8) : P b :=
  UInt8.ofNat_toNat (x := b) ▸ h b.toNat b.toNat_lt

/-- **The octets of an escaped octet** are read as the octet, whatever follows them. -/
theorem run_encodeByte (b : UInt8) (rest : Bytes) :
    run .plain (encodeByte b ++ rest) = b :: run .plain rest := by
  obtain ⟨hhigh, hlow, hsum⟩ : hexValue? (hexDigit (b / 16)) = some (b / 16) ∧
      hexValue? (hexDigit (b % 16)) = some (b % 16) ∧ b / 16 * 16 + b % 16 = b :=
    forall_octet (P := fun b => hexValue? (hexDigit (b / 16)) = some (b / 16) ∧
      hexValue? (hexDigit (b % 16)) = some (b % 16) ∧ b / 16 * 16 + b % 16 = b)
      (by decide +kernel) b
  unfold encodeByte
  split
  · rename_i hplain
    have hne : b ≠ 37 := by
      rintro rfl
      exact absurd hplain (by decide)
    rw [List.singleton_append, run, step, start, if_neg hne]
    rfl
  · simp only [List.cons_append, List.nil_append, run, step, start, if_true, hhigh, hlow, hsum]

theorem decode_encode (b : Bytes) : decode (b.flatMap encodeByte) = b := by
  unfold decode
  induction b with
  | nil => rfl
  | cons x b ih => rw [List.flatMap_cons, run_encodeByte, ih]

/-- What is written for an octet is ASCII, and no slash. -/
theorem encodeByte_spec {b x : UInt8} (h : x ∈ encodeByte b) : x ≤ 0x7F ∧ x ≠ 47 := by
  have hall : (encodeByte b).all (fun x => x ≤ 0x7F && x != 47) = true :=
    forall_octet (P := fun b => (encodeByte b).all (fun x => x ≤ 0x7F && x != 47) = true)
      (by decide +kernel) b
  simpa using List.all_eq_true.mp hall x h

theorem length_encodeByte_le (b : UInt8) : (encodeByte b).length ≤ 3 := by
  unfold encodeByte
  split <;> simp

/-- The octets of an escaped text. -/
theorem encode_encode (t : Text) :
    Utf8.encode (encode t) = (Utf8.encode t).flatMap encodeByte := by
  refine Utf8.encode_asciiText fun x hx => ?_
  obtain ⟨b, -, hb⟩ := List.mem_flatMap.mp hx
  exact (encodeByte_spec hb).1

/-- **An escaped text is decoded to itself.** -/
theorem decodeText_encode (t : Text) : decodeText (encode t) = t := by
  rw [decodeText, encode_encode, decode_encode, Utf8.decodeLossy_encode]

theorem encode_ne_nil {t : Text} (h : t ≠ []) : encode t ≠ [] := fun hnil =>
  h (by rw [← decodeText_encode t, hnil]; rfl)

theorem slash_not_mem_encode (t : Text) : '/' ∉ encode t := by
  intro h
  obtain ⟨x, hx, heq⟩ := List.mem_map.mp h
  obtain ⟨b, -, hb⟩ := List.mem_flatMap.mp hx
  obtain ⟨hle, hne⟩ := encodeByte_spec hb
  have hlt := Utf8.toNat_lt_of_ascii hle
  have hslash : x.toNat = 47 := by
    rw [← Utf8.toNat_ofNat_of_lt hlt, heq]
    decide
  exact hne (UInt8.toNat_inj.mp hslash)

/-- **A slash stands alone**: an unfinished escape in front of it stands for itself, and what
follows it is read from the beginning. -/
theorem run_append_slash (s : State) (front rest : Bytes) :
    run s (front ++ 47 :: rest) = run s front ++ 47 :: run .plain rest := by
  induction front generalizing s with
  | nil =>
    cases s with
    | plain => rfl
    | afterPercent => rfl
    | afterDigit digit =>
      have hnone : hexValue? 47 = none := by decide
      simp only [List.nil_append, run, step, hnone]
      cases hexValue? digit <;> rfl
  | cons x front ih => rw [List.cons_append, run, ih, run, List.append_assoc]

/-- **A URL path is decoded piece by piece.** -/
theorem decodeText_append_slash (p q : Text) :
    decodeText (p ++ '/' :: q) = decodeText p ++ '/' :: decodeText q := by
  have hslash : String.utf8EncodeChar '/' = [47] := by decide
  rw [decodeText, Utf8.encode_append, Utf8.encode_cons, hslash, List.singleton_append, decode,
    run_append_slash, Utf8.decodeLossy_append_ascii (by decide)]
  rfl

end Percent

end IsolatedSite
