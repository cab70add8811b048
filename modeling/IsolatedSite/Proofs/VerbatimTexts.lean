/-
# Texts from the environment

A variable has a text, but what it sets is a truth value or a number where the text reads as one.
For a key that holds a text this is written out again, and need not be the text that was given
(`respelled`).  `load_text_iff` says for which texts it is: those that are written as the value
would be (`KeepsSpelling`).  All others are lost on the way, without a fault.

Texts that no number looks like are safe (`keepsSpelling_of_not_isNumberLike`), and with them each
host that spells an address (`keepsSpelling_of_spellsHost`).  So what is lost is the name of a
folder, of a file or of the server, or the format of the log.
-/
import IsolatedSite.Proofs.ListenAddresses
import IsolatedSite.Proofs.OneKey

namespace IsolatedSite

/-! ## 1. Whole numbers -/

namespace Decimal

/-- Whole numbers as they are written: without a plus sign, a needless zero in front or a sign in
front of 0. -/
structure IsPlainWhole (t : Text) : Prop where
  noPlus : t.head? ≠ some '+'
  noNegativeZero : ¬ ['-', '0'] <+: t
  noZero : ¬ (t.head? = some '0' ∧ 1 < t.length)

theorem signed64?_cases {t : Text} {n : Int} (h : signed64? t = some n) :
    ∃ (digits : Text) (m : Nat), value? digits = some m ∧
      (t = '-' :: digits ∧ n = -(m : Int) ∨ t = '+' :: digits ∧ n = m ∨ t = digits ∧ n = m) := by
  unfold signed64? at h
  split at h
  all_goals
    simp only [Option.map_eq_some_iff, Option.bind_eq_bind, Option.bind_eq_some_iff,
      Option.pure_def, Option.some.injEq] at h
    obtain ⟨_, ⟨m, hm, rfl⟩, rfl⟩ := h
    have hvalue := (below?_eq_some_iff.mp hm).1
  · exact ⟨_, m, hvalue, .inl ⟨rfl, rfl⟩⟩
  · exact ⟨_, m, hvalue, .inr (.inl ⟨rfl, rfl⟩)⟩
  · exact ⟨_, m, hvalue, .inr (.inr ⟨rfl, rfl⟩)⟩

/-- Digits begin with a digit. -/
theorem exists_cons_of_value? {digits : Text} {m : Nat} (h : value? digits = some m) :
    ∃ c t, digits = c :: t ∧ c.isDigit = true := by
  obtain ⟨hne, hdigits, -⟩ := value?_eq_some_iff.mp h
  obtain ⟨c, t, rfl⟩ := List.exists_cons_of_ne_nil hne
  exact ⟨c, t, rfl, hdigits c List.mem_cons_self⟩

/-- Zero is written with zeros. -/
theorem head?_of_value?_zero {digits : Text} (h : value? digits = some 0) :
    digits.head? = some '0' := by
  by_contra hhead
  have hzero : digits = ofNat 0 := eq_ofNat_iff.mpr ⟨h, fun hand => hhead hand.1⟩
  exact hhead (hzero ▸ rfl)

theorem eq_ofInt_neg_iff {digits : Text} {m : Nat} (h : value? digits = some m) :
    '-' :: digits = ofInt (-(m : Int)) ↔ digits.head? ≠ some '0' := by
  rcases Nat.eq_zero_or_pos m with rfl | hpos
  · have hzero : ofInt (-((0 : Nat) : Int)) = ['0'] := by decide
    rw [hzero]
    exact ⟨fun heq => absurd (List.cons.inj heq).1 (by decide),
      fun hhead => absurd (head?_of_value?_zero h) hhead⟩
  · have hneg : ofInt (-(m : Int)) = '-' :: ofNat m := by simp [ofInt, hpos]
    rw [hneg, List.cons_inj_right, eq_ofNat_iff]
    constructor
    · rintro ⟨-, hplain⟩ hhead
      obtain ⟨c, t, rfl, -⟩ := exists_cons_of_value? h
      obtain rfl := Option.some.inj hhead
      cases t with
      | nil =>
        have hone : value? ['0'] = some 0 := by decide
        rw [hone] at h
        exact absurd (Option.some.inj h) (Nat.ne_of_lt hpos)
      | cons d t => exact hplain ⟨rfl, by simp⟩
    · exact fun hhead => ⟨h, fun hand => hhead hand.1⟩

/-- **A whole number is written as it was read** exactly if it was plain. -/
theorem eq_ofInt_iff {t : Text} {n : Int} (h : signed64? t = some n) :
    t = ofInt n ↔ IsPlainWhole t := by
  have hnat : ∀ m : Nat, ofInt (m : Int) = ofNat m := fun m => by simp [ofInt]
  obtain ⟨digits, m, hvalue, ⟨rfl, rfl⟩ | ⟨rfl, rfl⟩ | ⟨rfl, rfl⟩⟩ := signed64?_cases h
  · obtain ⟨c, u, rfl, hc⟩ := exists_cons_of_value? hvalue
    rw [eq_ofInt_neg_iff hvalue]
    constructor
    · intro hhead
      refine ⟨by simp, fun hprefix => hhead ?_, by simp⟩
      obtain ⟨-, hzero⟩ := List.cons_prefix_cons.mp hprefix
      rw [(List.cons_prefix_cons.mp hzero).1]
      rfl
    · rintro ⟨-, hprefix, -⟩ hhead
      obtain rfl := Option.some.inj hhead
      exact hprefix ⟨u, rfl⟩
  · obtain ⟨c, u, rfl, hc⟩ := exists_cons_of_value? hvalue
    rw [hnat]
    constructor
    · intro heq
      have hplus : '+' ∈ ofNat m := by
        rw [← heq]
        exact List.mem_cons_self
      exact absurd (isDigit_of_mem_ofNat hplus) (by decide)
    · exact fun hplain => absurd rfl hplain.noPlus
  · obtain ⟨c, u, rfl, hc⟩ := exists_cons_of_value? hvalue
    rw [hnat, eq_ofNat_iff]
    constructor
    · rintro ⟨-, hzero⟩
      refine ⟨?_, ?_, hzero⟩
      · rintro ⟨⟩
        exact absurd hc (by decide)
      · intro hprefix
        obtain ⟨rfl, -⟩ := List.cons_prefix_cons.mp hprefix
        exact absurd hc (by decide)
    · exact fun hplain => ⟨hvalue, hplain.noZero⟩

end Decimal

/-! ## 2. What numbers look like -/

/-- What a number may look like: at most one point, and of ASCII characters only letters, digits,
points and signs. -/
structure IsNumberLike (t : Text) : Prop where
  chars : ∀ c ∈ t, c.toNat < 128 → c.isAlphanum = true ∨ c = '+' ∨ c = '-' ∨ c = '.'
  dots : t.count '.' ≤ 1

/-- A part of a number in which no point stands. -/
def IsPointless (t : Text) : Prop := ∀ c ∈ t, c.isAlphanum = true ∨ c = '+' ∨ c = '-'

theorem IsPointless.append {s t : Text} (hs : IsPointless s) (ht : IsPointless t) :
    IsPointless (s ++ t) := List.forall_mem_append.mpr ⟨hs, ht⟩

theorem IsPointless.count_eq {t : Text} (h : IsPointless t) : t.count '.' = 0 :=
  List.count_eq_zero.mpr fun hdot => absurd (h '.' hdot) (by decide)

theorem isPointless_of_isDigit {t : Text} (h : ∀ c ∈ t, c.isDigit = true) : IsPointless t :=
  fun c hc => .inl (Bool.or_eq_true_iff.mpr (.inr (h c hc)))

theorem IsPointless.isNumberLike {t : Text} (h : IsPointless t) : IsNumberLike t where
  chars c hc _ := (h c hc).imp_right (Or.imp_right .inl)
  dots := by rw [h.count_eq]; exact Nat.zero_le 1

theorem isNumberLike_of_point {s t : Text} (hs : IsPointless s) (ht : IsPointless t) :
    IsNumberLike (s ++ '.' :: t) where
  chars := by
    rw [List.forall_mem_append, List.forall_mem_cons]
    exact ⟨hs.isNumberLike.chars, fun _ => .inr (.inr (.inr rfl)), ht.isNumberLike.chars⟩
  dots := by
    rw [List.count_append, List.count_cons_self, hs.count_eq, ht.count_eq]

namespace Number

/-- A sign is split off, or nothing. -/
theorem exists_of_signed (t : Text) : ∃ sign, t = sign ++ (signed t).2 ∧ IsPointless sign := by
  unfold signed
  split
  · exact ⟨['-'], rfl, by simp [IsPointless]⟩
  · exact ⟨['+'], rfl, by simp [IsPointless]⟩
  · exact ⟨[], rfl, by simp [IsPointless]⟩

theorem isPointless_of_exponent? {t : Text} {e : Int} (h : exponent? t = some e) :
    IsPointless t := by
  cases t with
  | nil => simp [IsPointless]
  | cons c t =>
    rw [exponent?] at h
    split at h
    · rename_i hc
      obtain ⟨sign, ht, hsign⟩ := exists_of_signed t
      simp only [Option.map_eq_some_iff, Option.bind_eq_bind, Option.bind_eq_some_iff] at h
      obtain ⟨_, ⟨n, hn, -⟩, -⟩ := h
      have hdigits := isPointless_of_isDigit (Decimal.value?_eq_some_iff.mp hn).2.1
      refine List.forall_mem_cons.mpr ⟨.inl ?_, ht ▸ hsign.append hdigits⟩
      rcases hc with rfl | rfl <;> decide
    · cases h

theorem isAlphanum_of_isLower_toLower {c : Char} (h : c.toLower.isLower = true) :
    c.isAlphanum = true := by
  have halpha : c.isAlphanum = ((c.isUpper || c.isLower) || c.isDigit) := rfl
  rw [halpha]
  by_cases hupper : c.isUpper = true
  · rw [hupper]
    rfl
  · have hsame : c.toLower = c := dif_neg fun hrange => hupper (decide_eq_true hrange)
    rw [← hsame, h, Bool.or_true]
    rfl

/-- A name of a number has letters only. -/
theorem isPointless_of_toLower {t name : Text} (hname : ∀ c ∈ name, c.isLower = true)
    (h : t.map Char.toLower = name) : IsPointless t := fun c hc =>
  .inl (isAlphanum_of_isLower_toLower (hname c.toLower (h ▸ List.mem_map_of_mem hc)))

/-- Digits, then a point with more of them, then an exponent. -/
theorem exists_of_magnitude? {negative : Bool} {t : Text} {x : Binary64}
    (h : magnitude? negative t = some x) :
    ∃ s u, IsPointless s ∧ IsPointless u ∧ (t = s ∨ t = s ++ '.' :: u) := by
  obtain ⟨whole, rest, rfl, hwhole, hrest⟩ := exists_run Char.isDigit t
  simp only [magnitude?, takeWhile_run hwhole hrest, List.drop_left] at h
  have hfront := isPointless_of_isDigit hwhole
  split at h
  · rename_i r
    split at h
    · cases h
    · obtain ⟨e, he, -⟩ := Option.bind_eq_some_iff.mp h
      have hfraction : IsPointless (r.takeWhile Char.isDigit) :=
        isPointless_of_isDigit fun c hc => List.mem_takeWhile_imp hc
      have hbehind := hfraction.append (isPointless_of_exponent? he)
      rw [List.takeWhile_append_dropWhile] at hbehind
      exact ⟨whole, r, hfront, hbehind, .inr rfl⟩
  · split at h
    · cases h
    · obtain ⟨e, he, -⟩ := Option.bind_eq_some_iff.mp h
      exact ⟨whole ++ rest, [], hfront.append (isPointless_of_exponent? he), by simp [IsPointless],
        .inl rfl⟩

/-- **What is read as a number looks like one.** -/
theorem isNumberLike_of_read? {t : Text} {x : Binary64} (h : Binary64.read? t = some x) :
    IsNumberLike t := by
  obtain ⟨sign, ht, hsign⟩ := exists_of_signed t
  have hnamed : ∀ name : Text, name.all Char.isLower = true →
      (signed t).2.map Char.toLower = name → IsNumberLike t := fun name hname heq => by
    rw [ht]
    exact (hsign.append (isPointless_of_toLower (List.all_eq_true.mp hname) heq)).isNumberLike
  simp only [Binary64.read?] at h
  split at h
  · rename_i hname
    rcases hname with hinf | hinf
    · exact hnamed _ (by decide) hinf
    · exact hnamed _ (by decide) hinf
  · split at h
    · rename_i hnan
      exact hnamed _ (by decide) hnan
    · obtain ⟨s, u, hs, hu, heq | heq⟩ := exists_of_magnitude? h
      · rw [ht, heq]
        exact (hsign.append hs).isNumberLike
      · rw [ht, heq, ← List.append_assoc]
        exact isNumberLike_of_point (hsign.append hs) hu

end Number

/-- Whole numbers look like numbers. -/
theorem isNumberLike_of_signed64? {t : Text} {n : Int} (h : Decimal.signed64? t = some n) :
    IsNumberLike t := by
  obtain ⟨digits, m, hvalue, hcases⟩ := Decimal.signed64?_cases h
  have hdigits := isPointless_of_isDigit (Decimal.value?_eq_some_iff.mp hvalue).2.1
  have hsigned : ∀ c, c = '+' ∨ c = '-' → IsPointless (c :: digits) := fun c hc =>
    List.forall_mem_cons.mpr ⟨.inr hc, hdigits⟩
  rcases hcases with ⟨rfl, -⟩ | ⟨rfl, -⟩ | ⟨rfl, -⟩
  · exact (hsigned '-' (.inr rfl)).isNumberLike
  · exact (hsigned '+' (.inl rfl)).isNumberLike
  · exact hdigits.isNumberLike

/-! ## 3. Truth values -/

/-- Small letters keep ASCII characters that are no letters. -/
theorem lowerChar_of_not_isAlphanum : ∀ n < 128, (Char.ofNat n).isAlphanum = false →
    Text.Case.lowerChar (Char.ofNat n) = Char.ofNat n := by
  decide +kernel

theorem mem_lower {c : Char} {t : Text} (hc : c ∈ t) (hascii : c.toNat < 128)
    (hletter : c.isAlphanum = false) : c ∈ Text.lower t := by
  have hsame : Text.Case.lowerChar c = c := by
    have h := lowerChar_of_not_isAlphanum c.toNat hascii
    rw [Char.ofNat_toNat] at h
    exact h hletter
  have hfrom : ∀ before, c ∈ t → c ∈ Text.Case.lowerFrom before t := by
    clear hc
    induction t with
    | nil => exact fun _ hc => hc
    | cons d t ih =>
      intro before hc
      rw [Text.Case.lowerFrom]
      rcases List.mem_cons.mp hc with rfl | hc
      · refine List.mem_append_left _ ?_
        rw [if_neg (by omega), if_neg (by omega), hsame]
        exact List.mem_cons_self
      · exact List.mem_append_right _ (ih (d :: before) hc)
  exact hfrom [] hc

/-- Truth values look like numbers as far as their characters go. -/
theorem isNumberLike_of_lower {t : Text} {b : Bool} (h : Text.lower t = Settings.boolText b) :
    IsNumberLike t := by
  have hall : (Settings.boolText b).all Char.isAlphanum = true := by
    cases b <;> decide
  have hletters := List.all_eq_true.mp hall
  refine ⟨fun c hc hascii => .inl ?_, ?_⟩
  · by_contra hmark
    rw [Bool.not_eq_true] at hmark
    exact absurd (hletters c (h ▸ mem_lower hc hascii hmark)) (by simp [hmark])
  · rw [List.count_eq_zero.mpr fun hdot =>
      absurd (hletters '.' (h ▸ mem_lower hdot (by decide) (by decide))) (by decide)]
    exact Nat.zero_le 1

namespace Settings

/-! ## 4. Texts and back -/

/-- The text that a variable's text becomes where a text is expected. -/
def respelled (t : Text) : Text :=
  match Environment.valueOf t with
  | .bool b _ => boolText b
  | .int n _ => Decimal.ofInt n
  | .float x _ => x.text
  | _ => t

/-- Texts that are written as what they are read as. -/
structure KeepsSpelling (t : Text) : Prop where
  truth : ∀ b, Text.lower t = boolText b → t = boolText b
  whole : ∀ n, Decimal.signed64? t = some n → Decimal.IsPlainWhole t
  fraction : ∀ x, Decimal.signed64? t = none → Number.Binary64.read? t = some x → t = x.text

/-- What a variable's text stands for, one case for each type. -/
theorem respelled_cases (t : Text) :
    (∃ b, Text.lower t = boolText b ∧ Environment.valueOf t = .bool b Environment.origin) ∨
    (∀ b, Text.lower t ≠ boolText b) ∧
      ((∃ n, Decimal.signed64? t = some n ∧
          Environment.valueOf t = .int n Environment.origin) ∨
        Decimal.signed64? t = none ∧
          ((∃ x, Number.Binary64.read? t = some x ∧
              Environment.valueOf t = .float x Environment.origin) ∨
            Number.Binary64.read? t = none ∧
              Environment.valueOf t = .text t Environment.origin)) := by
  unfold Environment.valueOf
  dsimp only
  split
  · rename_i htrue
    exact .inl ⟨true, htrue, rfl⟩
  · rename_i htrue
    split
    · rename_i hfalse
      exact .inl ⟨false, hfalse, rfl⟩
    · rename_i hfalse
      refine .inr ⟨fun b => ?_, ?_⟩
      · cases b with
        | false => exact hfalse
        | true => exact htrue
      · split
        · rename_i n hn
          exact .inl ⟨n, hn, rfl⟩
        · rename_i x hn hx
          exact .inr ⟨hn, .inl ⟨x, hx, rfl⟩⟩
        · rename_i hn hx
          exact .inr ⟨hn, .inr ⟨hx, rfl⟩⟩

/-- **Where a text is expected**, a variable is read as its text respelled. -/
theorem text_valueOf (key : KeyPath) (t : Text) :
    Entry.text ⟨key, Environment.valueOf t⟩ = .ok (respelled t) := by
  unfold Entry.text respelled
  obtain ⟨b, -, hv⟩ | ⟨-, ⟨n, -, hv⟩ | ⟨-, ⟨x, -, hv⟩ | ⟨-, hv⟩⟩⟩ := respelled_cases t
  all_goals simp only [hv]

/-- **A text comes back** exactly if it is written as what it is read as. -/
theorem respelled_eq_iff (t : Text) : respelled t = t ↔ KeepsSpelling t := by
  have hwords : ∀ b, Decimal.signed64? (boolText b) = none ∧
      Number.Binary64.read? (boolText b) = none := by
    intro b
    cases b <;> exact ⟨by decide, by decide⟩
  obtain ⟨b, hb, hv⟩ | ⟨hno, ⟨n, hn, hv⟩ | ⟨hn, ⟨x, hx, hv⟩ | ⟨hx, hv⟩⟩⟩ := respelled_cases t
  · simp only [respelled, hv]
    constructor
    · rintro rfl
      obtain ⟨hsigned, hread⟩ := hwords b
      refine ⟨fun b' hb' => hb.symm.trans hb', ?_, ?_⟩
      · rw [hsigned]
        nofun
      · rw [hread]
        nofun
    · exact fun h => (h.truth b hb).symm
  · simp only [respelled, hv]
    constructor
    · intro heq
      refine ⟨fun b hb => absurd hb (hno b), fun _ _ => ?_, fun _ hnone => ?_⟩
      · exact (Decimal.eq_ofInt_iff hn).mp heq.symm
      · rw [hn] at hnone
        cases hnone
    · exact fun h => ((Decimal.eq_ofInt_iff hn).mpr (h.whole n hn)).symm
  · simp only [respelled, hv]
    constructor
    · intro heq
      refine ⟨fun b hb => absurd hb (hno b), fun _ hsome => ?_, fun y _ hy => ?_⟩
      · rw [hn] at hsome
        cases hsome
      · obtain rfl := Option.some.inj (hx.symm.trans hy)
        exact heq.symm
    · exact fun h => (h.fraction x hn hx).symm
  · simp only [respelled, hv, true_iff]
    refine ⟨fun b hb => absurd hb (hno b), fun _ hsome => ?_, fun y _ hy => ?_⟩
    · rw [hn] at hsome
      cases hsome
    · rw [hx] at hy
      cases hy

/-- Texts that look like nothing else are kept. -/
theorem keepsSpelling_of_not_isNumberLike {t : Text} (h : ¬ IsNumberLike t) : KeepsSpelling t where
  truth _ hb := absurd (isNumberLike_of_lower hb) h
  whole _ hn := absurd (isNumberLike_of_signed64? hn) h
  fraction _ _ hx := absurd (Number.isNumberLike_of_read? hx) h

/-- Hosts that spell an address are kept: they have three points in them or brackets around. -/
theorem keepsSpelling_of_spellsHost {a : Net.Ip} {t : Text} (h : Net.SpellsHost a t) :
    KeepsSpelling t := by
  refine keepsSpelling_of_not_isNumberLike fun hlike => ?_
  cases a with
  | v4 ip =>
    have hdots := hlike.dots
    rw [h.eq_text, ip.count_dot_text] at hdots
    omega
  | v6 ip scope =>
    obtain ⟨inner, rfl, -⟩ := h.exists_bracketed
    exact absurd (hlike.chars '[' (by simp) (by decide)) (by decide)

/-! ## 5. Keys of texts -/

/-- A key that holds a text. -/
def Key.IsText (k : Key) : Prop :=
  k ∈ [.host, .serverName, .root, .accessLogFormat, .accessLogFile, .errorLogFile]

instance (k : Key) : Decidable k.IsText := inferInstanceAs (Decidable (k ∈ _))

/-- The text that settings hold for a key, if it holds one. -/
def Key.textIn : Key → Settings → Option Text
  | .host => fun st => some st.server.host
  | .serverName => fun st => some st.server.serverName
  | .root => fun st => some st.serve.root
  | .accessLogFormat => fun st => some st.logging.accessLogFormat
  | .accessLogFile => fun st => st.logging.accessLogFile
  | .errorLogFile => fun st => st.logging.errorLogFile
  | .port | .workers | .indexFiles | .directoryListing | .accessLog => fun _ => none

/-- A key that holds a text reads every variable, as its text respelled. -/
theorem Key.exists_read?_valueOf {k : Key} (hk : k.IsText) (t : Text) :
    ∃ c, k.read? (some (Environment.valueOf t)) = some c ∧
      ∀ st, k.get st = c → k.textIn st = some (respelled t) := by
  have hnull : ∀ o, Environment.valueOf t ≠ .null o := by
    obtain ⟨b, -, hv⟩ | ⟨-, ⟨n, -, hv⟩ | ⟨-, ⟨x, -, hv⟩ | ⟨-, hv⟩⟩⟩ := respelled_cases t
    all_goals
      rw [hv]
      nofun
  have hoptional : ∀ key, Entry.optional Entry.text ⟨key, Environment.valueOf t⟩ =
      .ok (some (respelled t)) := fun key => by
    unfold Entry.optional
    split
    · rename_i o hv
      exact absurd hv (hnull o)
    · rw [text_valueOf]
      rfl
  cases k with
  | host | serverName | root | accessLogFormat =>
    exact ⟨respelled t, by simp only [read?, reader, text_valueOf]; rfl, fun _ h => congrArg some h⟩
  | accessLogFile | errorLogFile =>
    exact ⟨some (respelled t), by simp only [read?, reader, hoptional]; rfl, fun _ h => h⟩
  | port | workers | indexFiles | directoryListing | accessLog => exact absurd hk (by decide)

/-! ## 6. Loading -/

/-- **Texts from the environment.**  Let a variable set a key that holds a text, let no later one
set the key again, and let everything else be valid: with some text in the variable the settings
load.  Then they load with every text, and only what the key holds depends on it.  The key holds the
text that was given exactly if that is written as what it is read as; so it is with texts that no
number looks like. -/
theorem load_text_iff {k : Key} (hk : k.IsText) {file : Option SettingsFile}
    {before after : List Environment.Variable} {name w : Text} {st₀ : Settings}
    (hname : Text.lower name = variableName k)
    (hafter : ∀ s ∈ Environment.settings after,
      (KeyPath.ofKey s.1).Avoids k.part.key k.field.toList)
    (hvalid : load file (before ++ (name, w) :: after) = .ok st₀) (t : Text) :
    ∃ st, load file (before ++ (name, t) :: after) = .ok st ∧
      k.textIn st = some (respelled t) ∧
      (∀ k' : Key, k' ≠ k → k'.get st = k'.get st₀) ∧
      (k.textIn st = some t ↔ KeepsSpelling t) ∧
      (¬ IsNumberLike t → k.textIn st = some t) := by
  obtain ⟨c, hread, htext⟩ := Key.exists_read?_valueOf hk t
  have hload := load_with_other_value k hname hafter hvalid hread
  have hin := htext _ (k.get_withContent_self c st₀)
  have hiff : k.textIn (k.withContent c st₀) = some t ↔ KeepsSpelling t := by
    rw [hin, Option.some.injEq, respelled_eq_iff]
  exact ⟨_, hload, hin, fun k' hk' => Key.get_withContent_of_ne hk' c st₀, hiff,
    fun hlike => hiff.mpr (keepsSpelling_of_not_isNumberLike hlike)⟩

/-- An environment that sets the first index file. -/
def indexVariable : List Environment.Variable :=
  [("COI_SERVE_SERVE__INDEX_FILES[0]".toList, "home.html".toList)]

/-- What is loaded with the first index file and the port set. -/
def homeSettings : Settings where
  server := { default.server with port := 9000 }
  serve := { default.serve with indexFiles := ["home.html".toList] }
  logging := default.logging

/-- The folder `1.0.2` between two other variables, written in capitals and in small letters. -/
theorem load_dottedRoot : ∃ st,
    load none (indexVariable ++ ("Coi_Serve_serve__Root".toList, "1.0.2".toList) :: portVariable) =
      .ok st ∧ Key.textIn .root st = some "1.0.2".toList ∧ st.server.port = 9000 := by
  have hafter : ∀ s ∈ Environment.settings portVariable,
      (KeyPath.ofKey s.1).Avoids (Key.part .root).key (Key.field .root).toList := by
    refine avoids_of_lower (k := .root) fun v hv => .inr ⟨.port, by decide, ?_⟩
    obtain rfl := List.mem_singleton.mp hv
    decide
  have hvalid : load none
      (indexVariable ++ ("Coi_Serve_serve__Root".toList, ".".toList) :: portVariable) =
        .ok homeSettings := by
    decide +kernel
  obtain ⟨st, hload, -, hothers, -, hkept⟩ := load_text_iff (k := .root) (by decide) (by decide)
    hafter hvalid "1.0.2".toList
  have hlike : ¬ IsNumberLike "1.0.2".toList := fun h => absurd h.dots (by decide)
  exact ⟨st, hload, hkept hlike, hothers .port (by decide)⟩

/-- The folder `007` is not the one that is served. -/
theorem load_numericRoot :
    load none [("COI_SERVE_SERVE__ROOT".toList, "007".toList)] =
      .ok { default with serve := { default.serve with root := ['7'] } } := by
  decide +kernel

end Settings

end IsolatedSite
