/-
# The texts of addresses

What stands for the host of a socket address (`SpellsHost`): four numbers with dots between them, or
an address of version 6 in brackets, with a scope behind it if it has one.  Version 6 has many texts
for an address: groups have up to four digits of either case, one run of zero groups may be left
out, and the last two groups may be written as an address of version 4.

The reader of socket addresses goes through a text once and tries one thing after the other.  It
reads these texts, a colon and the digits of a port, and nothing else
(`SocketAddress.read?_eq_some_iff`).  What it reads is such a text because each step takes a piece
off the front.  Of such a text it leaves nothing out because where it has a choice, what it tries
first goes wrong in the same piece (`ip4_eq_none`), and where pieces end, none goes on
(`EndsPieces`).
-/
import IsolatedSite.Net.AddressReader
import IsolatedSite.Proofs.Cutting
import IsolatedSite.Proofs.Numerals

namespace IsolatedSite

/-! ## 1. Hexadecimal digits -/

namespace Hex

theorem isDigit_of_decimal {c : Char} (h : c.isDigit = true) : isDigit c = true := by
  simp [isDigit, h]

theorem digitValue_lt {c : Char} (h : isDigit c = true) : digitValue c < 16 := by
  simp only [isDigit, Char.isDigit, Bool.or_eq_true, Bool.and_eq_true, decide_eq_true_eq,
    Char.le_def, UInt32.le_iff_toNat_le, ge_iff_le] at h
  have hsmall : 'a'.val.toNat = 97 ∧ 'f'.val.toNat = 102 := by decide
  have hlarge : 'A'.val.toNat = 65 ∧ 'F'.val.toNat = 70 ∧ 'Z'.val.toNat = 90 := by decide
  have hfigures : '0'.val.toNat = 48 ∧ '9'.val.toNat = 57 := by decide
  have hupper : c.isUpper = decide (c.val ≥ 'A'.val ∧ c.val ≤ 'Z'.val) := rfl
  simp only [digitValue, Char.isDigit, hupper, Char.toNat, Bool.and_eq_true, decide_eq_true_eq,
    UInt32.le_iff_toNat_le, ge_iff_le]
  split
  · omega
  · split
    · omega
    · omega

theorem value_concat (front : Text) (c : Char) :
    value (front ++ [c]) = value front * 16 + digitValue c := by
  simp [value]

/-- Hexadecimal digits denote less than their power of 16. -/
theorem value_lt {digits : Text} (h : ∀ c ∈ digits, isDigit c = true) :
    value digits < Nat.pow 16 digits.length := by
  induction digits using List.reverseRecOn with
  | nil => decide
  | append_singleton front c ih =>
    have hfront := ih fun d hd => h d (List.mem_append_left _ hd)
    have hc := digitValue_lt (h c (by simp))
    have hpow : Nat.pow 16 (front.length + 1) = Nat.pow 16 front.length * 16 := rfl
    rw [value_concat, List.length_append, List.length_singleton, hpow]
    omega

end Hex

namespace Net

/-! ## 2. Forms -/

/-- Up to four hexadecimal digits that denote a group. -/
structure SpellsGroup (g : UInt16) (piece : Text) : Prop where
  nonempty : piece ≠ []
  short : piece.length ≤ 4
  digits : ∀ c ∈ piece, Hex.isDigit c = true
  value : Hex.value piece = g.toNat

/-- The pieces between colons that spell groups.  `dotted` says that the last piece is an address of
version 4, which spells two groups. -/
inductive SpellsGroups : (dotted : Bool) → List UInt16 → List Text → Prop
  | none : SpellsGroups false [] []
  | more {dotted : Bool} {g : UInt16} {piece : Text} {gs : List UInt16} {pieces : List Text} :
      SpellsGroup g piece → SpellsGroups dotted gs pieces →
      SpellsGroups dotted (g :: gs) (piece :: pieces)
  | dotted (ip : Ip4) : SpellsGroups true ip.groups [ip.text]

/-- The texts of an address of version 6: all of its groups, or those around a run of zeros. -/
inductive SpellsIp6 (ip : Ip6) : Text → Prop
  | full {dotted : Bool} {pieces : List Text} : SpellsGroups dotted ip.groups pieces →
      SpellsIp6 ip (joinWith [':'] pieces)
  | gap {dotted : Bool} {fs bs : List UInt16} {front back : List Text} {zeros : Nat} :
      SpellsGroups false fs front → SpellsGroups dotted bs back → 0 < zeros →
      ip.groups = fs ++ List.replicate zeros 0 ++ bs →
      SpellsIp6 ip (joinWith [':'] front ++ "::".toList ++ joinWith [':'] back)

/-- The texts of a number: decimal digits, also with zeros in front. -/
def SpellsNumber (n : Nat) (digits : Text) : Prop :=
  digits ≠ [] ∧ (∀ c ∈ digits, c.isDigit = true) ∧ Nat.ofDigitChars 10 digits 0 = n

/-- The texts of a scope, which may be left out if it is 0. -/
inductive SpellsScope : UInt32 → Text → Prop
  | none : SpellsScope 0 []
  | number {scope : UInt32} {digits : Text} : SpellsNumber scope.toNat digits →
      SpellsScope scope ('%' :: digits)

/-- **The texts of an address as a host.** -/
inductive SpellsHost : Ip → Text → Prop
  | v4 (ip : Ip4) : SpellsHost (.v4 ip) ip.text
  | v6 {ip : Ip6} {scope : UInt32} {t s : Text} : SpellsIp6 ip t → SpellsScope scope s →
      SpellsHost (.v6 ip scope) ('[' :: t ++ s ++ [']'])

/-! ## 3. Numbers and groups -/

theorem char_eq_some_iff {c : Char} {t rest : Text} {u : Unit} :
    char c t = some (u, rest) ↔ t = c :: rest := by
  cases t with
  | nil => simp [char]
  | cons d t => by_cases h : c = d <;> simp [char, h, eq_comm]

@[simp] theorem char_cons (c : Char) (t : Text) : char c (c :: t) = some ((), t) :=
  char_eq_some_iff.mpr rfl

section Digits

variable {digits t rest : Text}

theorem number_run {limit : Nat} (h : ∀ c ∈ digits, c.isDigit = true)
    (hrest : EndsRun Char.isDigit rest) :
    number limit (digits ++ rest) = (Decimal.below? limit digits).map fun n => (n, rest) := by
  rw [number, takeWhile_run h hrest, List.drop_left]

theorem number_eq_some_iff {limit n : Nat} : number limit t = some (n, rest) ↔
    ∃ digits, t = digits ++ rest ∧ EndsRun Char.isDigit rest ∧ SpellsNumber n digits ∧
      n < limit := by
  constructor
  · intro h
    obtain ⟨digits, after, rfl, hdigits, hafter⟩ := exists_run Char.isDigit t
    rw [number_run hdigits hafter] at h
    obtain ⟨m, hm, heq⟩ := Option.map_eq_some_iff.mp h
    obtain ⟨rfl, rfl⟩ := Prod.mk.inj heq
    obtain ⟨hvalue, hlt⟩ := Decimal.below?_eq_some_iff.mp hm
    exact ⟨digits, rfl, hafter, Decimal.value?_eq_some_iff.mp hvalue, hlt⟩
  · rintro ⟨digits, rfl, hrest, hdigits, hlt⟩
    rw [number_run hdigits.2.1 hrest, Decimal.below?_eq_some_iff.mpr
      ⟨Decimal.value?_eq_some_iff.mpr hdigits, hlt⟩]
    rfl

/-- **An octet** is read from the digits that it is written with. -/
theorem octet_eq_some_iff {x : UInt8} : octet t = some (x, rest) ↔
    t = Decimal.ofNat x.toNat ++ rest ∧ EndsRun Char.isDigit rest := by
  constructor
  · intro h
    obtain ⟨digits, after, rfl, hdigits, hafter⟩ := exists_run Char.isDigit t
    simp only [octet, takeWhile_run hdigits hafter, List.drop_left] at h
    split at h
    · cases h
    · rename_i hshape
      obtain ⟨n, hn, heq⟩ := Option.map_eq_some_iff.mp h
      obtain ⟨rfl, rfl⟩ := Prod.mk.inj heq
      obtain ⟨hvalue, hlt⟩ := Decimal.below?_eq_some_iff.mp hn
      have hcanonical : digits = Decimal.ofNat n :=
        Decimal.eq_ofNat_iff.mpr ⟨hvalue, fun hzero => hshape (.inr (.inr hzero))⟩
      rw [toNat_toUInt8 hlt, ← hcanonical]
      exact ⟨rfl, hafter⟩
  · rintro ⟨rfl, hrest⟩
    have hlt : x.toNat < 256 := x.toNat_lt
    obtain ⟨hvalue, hzero⟩ := Decimal.eq_ofNat_iff.mp (Eq.refl (Decimal.ofNat x.toNat))
    obtain ⟨hne, hdigits, -⟩ := Decimal.value?_eq_some_iff.mp hvalue
    have hlength : (Decimal.ofNat x.toNat).length ≤ 3 :=
      (Nat.length_toDigits_le_iff (by decide) (by decide)).mpr (by omega)
    have hshape : ¬ ((Decimal.ofNat x.toNat).length = 0 ∨ 3 < (Decimal.ofNat x.toNat).length ∨
        (Decimal.ofNat x.toNat).head? = some '0' ∧ 1 < (Decimal.ofNat x.toNat).length) := by
      rintro (hnone | hlong | h)
      · exact hne (List.length_eq_zero_iff.mp hnone)
      · omega
      · exact hzero h
    simp only [octet, takeWhile_run hdigits hrest, List.drop_left]
    rw [if_neg hshape, Decimal.below?_eq_some_iff.mpr ⟨hvalue, hlt⟩]
    simp

end Digits

/-- **A group** is read from up to four digits. -/
theorem group_eq_some_iff {g : UInt16} {t rest : Text} : group t = some (g, rest) ↔
    ∃ piece, t = piece ++ rest ∧ EndsRun Hex.isDigit rest ∧ SpellsGroup g piece := by
  have hrun : ∀ {piece after : Text}, (∀ c ∈ piece, Hex.isDigit c = true) →
      EndsRun Hex.isDigit after → group (piece ++ after) =
        if piece.length = 0 ∨ 4 < piece.length then none
        else some ((Hex.value piece).toUInt16, after) := by
    intro piece after hpiece hafter
    rw [group, takeWhile_run hpiece hafter, List.drop_left]
  constructor
  · intro h
    obtain ⟨piece, after, rfl, hpiece, hafter⟩ := exists_run Hex.isDigit t
    rw [hrun hpiece hafter] at h
    split at h
    · cases h
    · rename_i hshape
      obtain ⟨rfl, rfl⟩ := Prod.mk.inj (Option.some.inj h)
      have hshort : piece.length ≤ 4 := by omega
      have hlt : Hex.value piece < 65536 :=
        Nat.lt_of_lt_of_le (Hex.value_lt hpiece) (Nat.pow_le_pow_right (by decide) hshort)
      refine ⟨piece, rfl, hafter, ?_, hshort, hpiece, ?_⟩
      · rintro rfl
        exact hshape (.inl rfl)
      · simpa using (Nat.mod_eq_of_lt hlt).symm
  · rintro ⟨piece, rfl, hrest, hpiece⟩
    have hshape : ¬ (piece.length = 0 ∨ 4 < piece.length) := by
      have hpos := List.length_pos_iff.mpr hpiece.nonempty
      have hshort := hpiece.short
      omega
    rw [hrun hpiece.digits hrest, if_neg hshape, hpiece.value]
    simp

/-! ## 4. Addresses of version 4 -/

theorem Ip4.text_eq (ip : Ip4) : ip.text =
    Decimal.ofNat ip.a.toNat ++ '.' :: (Decimal.ofNat ip.b.toNat ++ '.' ::
      (Decimal.ofNat ip.c.toNat ++ '.' :: Decimal.ofNat ip.d.toNat)) := by
  simp [Ip4.text, joinWith]

/-- **An address of version 4** is read from its text. -/
theorem ip4_eq_some_iff {ip : Ip4} {t rest : Text} :
    ip4 t = some (ip, rest) ↔ t = ip.text ++ rest ∧ EndsRun Char.isDigit rest := by
  have hdot : ∀ u : Text, EndsRun Char.isDigit ('.' :: u) := endsRun_cons (by decide)
  rw [Ip4.text_eq]
  constructor
  · intro h
    simp only [ip4, Option.bind_eq_bind, Option.bind_eq_some_iff, Prod.exists, char_eq_some_iff,
      octet_eq_some_iff, Option.pure_def, Option.some.injEq, Prod.mk.injEq] at h
    obtain ⟨a, _, ⟨rfl, -⟩, _, _, rfl, b, _, ⟨rfl, -⟩, _, _, rfl, c, _, ⟨rfl, -⟩, _, _, rfl, d, _,
      ⟨rfl, hrest⟩, rfl, rfl⟩ := h
    exact ⟨by simp, hrest⟩
  · rintro ⟨rfl, hrest⟩
    have hread : ∀ (x : UInt8) (u : Text), EndsRun Char.isDigit u →
        octet (Decimal.ofNat x.toNat ++ u) = some (x, u) := fun x u hu =>
      octet_eq_some_iff.mpr ⟨rfl, hu⟩
    simp only [ip4, Option.bind_eq_bind, List.append_assoc, List.cons_append, hread, hdot,
      char_cons, hrest, Option.bind_some]
    rfl

theorem Ip4.exists_text_eq (ip : Ip4) : ∃ u, ip.text = Decimal.ofNat ip.a.toNat ++ '.' :: u :=
  ⟨_, ip.text_eq⟩

/-! ## 5. Groups -/

/-- What stands in front of a piece. -/
def lead (first : Bool) : Text := if first then [] else [':']

/-- Pieces with a colon in front of each but the first of all. -/
def piecesText (first : Bool) : List Text → Text
  | [] => []
  | piece :: pieces => lead first ++ piece ++ piecesText false pieces

theorem joinWith_eq_piecesText (pieces : List Text) :
    joinWith [':'] pieces = piecesText true pieces := by
  induction pieces with
  | nil => rfl
  | cons piece pieces ih =>
    cases pieces with
    | nil => simp [joinWith, piecesText, lead]
    | cons next pieces =>
      rw [joinWith, ih]
      simp [piecesText, lead]

theorem behindColon_eq_some_iff {α : Type} {first : Bool} {step : Step α} {t : Text}
    {r : α × Text} :
    behindColon first step t = some r ↔ ∃ u, t = lead first ++ u ∧ step u = some r := by
  cases first with
  | true => simp [behindColon, lead]
  | false => simp [behindColon, lead, Option.bind_eq_some_iff, char_eq_some_iff]

theorem behindColon_eq_none_iff {α : Type} {first : Bool} {step : Step α} {t : Text} :
    behindColon first step t = none ↔ ∀ u, t = lead first ++ u → step u = none := by
  simp only [Option.eq_none_iff_forall_ne_some, ne_eq, behindColon_eq_some_iff, not_exists, not_and]
  exact ⟨fun h u hu r => h r u hu, fun h r u hu => h u hu r⟩

/-- What is read as groups are pieces that spell them, no more than there is room for. -/
theorem groupsUpTo_sound {room : Nat} {first dotted : Bool} {t rest : Text} {gs : List UInt16}
    (h : groupsUpTo room first t = (gs, dotted, rest)) :
    ∃ pieces, t = piecesText first pieces ++ rest ∧ SpellsGroups dotted gs pieces ∧
      gs.length ≤ room := by
  induction room generalizing first t gs with
  | zero =>
    obtain ⟨rfl, hrest⟩ := Prod.mk.inj h
    obtain ⟨rfl, rfl⟩ := Prod.mk.inj hrest
    exact ⟨[], rfl, .none, Nat.le_refl 0⟩
  | succ room ih =>
    rw [groupsUpTo] at h
    split at h
    · rename_i ip after hip
      obtain ⟨rfl, hrest⟩ := Prod.mk.inj h
      obtain ⟨rfl, rfl⟩ := Prod.mk.inj hrest
      split at hip
      · rename_i hroom
        obtain ⟨u, rfl, hread⟩ := behindColon_eq_some_iff.mp hip
        obtain ⟨rfl, -⟩ := ip4_eq_some_iff.mp hread
        exact ⟨[ip.text], by simp [piecesText], .dotted ip, Nat.succ_le_succ hroom⟩
      · cases hip
    · split at h
      · obtain ⟨rfl, hrest⟩ := Prod.mk.inj h
        obtain ⟨rfl, rfl⟩ := Prod.mk.inj hrest
        exact ⟨[], rfl, .none, Nat.zero_le _⟩
      · rename_i g after hgroup
        obtain ⟨u, rfl, hread⟩ := behindColon_eq_some_iff.mp hgroup
        obtain ⟨piece, rfl, -, hpiece⟩ := group_eq_some_iff.mp hread
        cases hmore : groupsUpTo room false after with
        | mk gs' tail =>
          obtain ⟨dotted', rest'⟩ := tail
          rw [hmore] at h
          obtain ⟨rfl, hrest⟩ := Prod.mk.inj h
          obtain ⟨rfl, rfl⟩ := Prod.mk.inj hrest
          obtain ⟨pieces, rfl, hpieces, hlength⟩ := ih hmore
          exact ⟨piece :: pieces, by simp [piecesText], .more hpiece hpieces,
            Nat.succ_le_succ hlength⟩

/-- A character of a piece. -/
def isOfPiece (c : Char) : Bool := Hex.isDigit c || c = '.'

/-- A text in front of which pieces end: no piece goes on in it, and none begins behind a colon. -/
structure EndsPieces (rest : Text) : Prop where
  endsPiece : EndsRun isOfPiece rest
  noPiece : ∀ u, rest = ':' :: u → EndsRun isOfPiece u

section NoPiece

variable {piece rest : Text}

theorem isOfPiece_of_isDigit {c : Char} (h : Hex.isDigit c = true) : isOfPiece c = true := by
  simp [isOfPiece, h]

/-- No address of version 4 begins with digits that no dot follows. -/
theorem ip4_eq_none (hpiece : ∀ c ∈ piece, Hex.isDigit c = true) (hrest : EndsRun isOfPiece rest) :
    ip4 (piece ++ rest) = none := by
  refine Option.eq_none_iff_forall_ne_some.mpr fun ⟨ip, after⟩ h => ?_
  obtain ⟨htext, -⟩ := ip4_eq_some_iff.mp h
  obtain ⟨u, hu⟩ := ip.exists_text_eq
  have hdigits : ∀ c ∈ Decimal.ofNat ip.a.toNat, Hex.isDigit c = true := fun c hc =>
    Hex.isDigit_of_decimal (Decimal.isDigit_of_mem_ofNat hc)
  have hdot : EndsRun Hex.isDigit ('.' :: (u ++ after)) := endsRun_cons (by decide) _
  rw [hu, List.append_assoc, List.cons_append] at htext
  obtain ⟨-, rfl⟩ := run_append_inj hpiece hdigits (hrest.mono fun _ => isOfPiece_of_isDigit) hdot
    htext
  exact absurd (hrest '.' rfl) (by decide)

theorem group_eq_none (hrest : EndsRun isOfPiece rest) : group rest = none := by
  refine Option.eq_none_iff_forall_ne_some.mpr fun ⟨g, after⟩ h => ?_
  obtain ⟨piece, rfl, -, hpiece⟩ := group_eq_some_iff.mp h
  obtain ⟨c, piece, rfl⟩ := List.exists_cons_of_ne_nil hpiece.nonempty
  exact absurd (hrest c rfl) (by simp [isOfPiece, hpiece.digits c List.mem_cons_self])

theorem EndsPieces.behind {first : Bool} {u : Text} (h : EndsPieces (lead first ++ u)) :
    EndsRun isOfPiece u := by
  cases first with
  | true => exact h.endsPiece
  | false => exact h.noPiece u rfl

/-- Nothing is read as groups where no piece begins. -/
theorem EndsPieces.groupsUpTo_eq (h : EndsPieces rest) (room : Nat) (first : Bool) :
    groupsUpTo room first rest = ([], false, rest) := by
  have hip : behindColon first ip4 rest = none := behindColon_eq_none_iff.mpr fun u hu =>
    @ip4_eq_none [] _ (by simp) (EndsPieces.behind (hu ▸ h))
  have hgroup : behindColon first group rest = none := behindColon_eq_none_iff.mpr fun u hu =>
    group_eq_none (EndsPieces.behind (hu ▸ h))
  cases room with
  | zero => rfl
  | succ room => simp [groupsUpTo, hip, hgroup]

theorem endsRun_piecesText (pieces : List Text) (h : EndsPieces rest) :
    EndsRun isOfPiece (piecesText false pieces ++ rest) := by
  cases pieces with
  | nil => exact h.endsPiece
  | cons piece pieces => exact endsRun_cons (by decide) _

end NoPiece

/-- **Pieces are read as the groups that they spell** if there is room for them. -/
theorem groupsUpTo_complete {dotted : Bool} {gs : List UInt16} {pieces : List Text}
    (h : SpellsGroups dotted gs pieces) {room : Nat} (hroom : gs.length ≤ room) (first : Bool)
    {rest : Text} (hrest : EndsPieces rest) :
    groupsUpTo room first (piecesText first pieces ++ rest) = (gs, dotted, rest) := by
  induction h generalizing room first with
  | none => exact hrest.groupsUpTo_eq room first
  | @more dotted g piece gs pieces hpiece _ ih =>
    obtain ⟨room, rfl⟩ : ∃ n, room = n + 1 := Nat.exists_eq_add_one_of_ne_zero (by
      rintro rfl
      exact absurd hroom (by simp))
    have hmore := ih (Nat.le_of_succ_le_succ hroom) false
    have hends := endsRun_piecesText pieces hrest
    have hip : behindColon first ip4 (lead first ++ (piece ++ (piecesText false pieces ++ rest))) =
        none := behindColon_eq_none_iff.mpr fun u hu => by
      rw [← List.append_cancel_left hu]
      exact ip4_eq_none hpiece.digits hends
    have hgroup : behindColon first group
        (lead first ++ (piece ++ (piecesText false pieces ++ rest))) =
        some (g, piecesText false pieces ++ rest) :=
      behindColon_eq_some_iff.mpr ⟨_, rfl, group_eq_some_iff.mpr
        ⟨piece, rfl, hends.mono fun _ => isOfPiece_of_isDigit, hpiece⟩⟩
    simp only [groupsUpTo, piecesText, List.append_assoc, hip, hgroup, hmore, ite_self]
  | dotted ip =>
    obtain ⟨room, rfl⟩ : ∃ n, room = n + 2 := Nat.exists_eq_add_of_le' hroom
    have hread : behindColon first ip4 (lead first ++ (ip.text ++ rest)) = some (ip, rest) :=
      behindColon_eq_some_iff.mpr ⟨_, rfl, ip4_eq_some_iff.mpr
        ⟨rfl, hrest.endsPiece.mono fun _ h => isOfPiece_of_isDigit (Hex.isDigit_of_decimal h)⟩⟩
    simp [groupsUpTo, piecesText, hread]

/-! ## 6. Addresses of version 6 -/

theorem Ip6.ofGroups?_eq_some_iff {gs : List UInt16} {ip : Ip6} :
    Ip6.ofGroups? gs = some ip ↔ gs = ip.groups := by
  cases ip with
  | mk groups eight =>
    by_cases h : gs.length = 8
    · simp [Ip6.ofGroups?, h]
    · have hne : gs ≠ groups := by
        rintro rfl
        exact h eight
      simp [Ip6.ofGroups?, h, hne]

/-- What is read as an address of version 6 is a text of it. -/
theorem ip6_sound {ip : Ip6} {t rest : Text} (h : ip6 t = some (ip, rest)) :
    ∃ piece, t = piece ++ rest ∧ SpellsIp6 ip piece := by
  cases hfront : groupsUpTo 8 true t with
  | mk fs tail =>
    obtain ⟨dotted, after⟩ := tail
    obtain ⟨front, rfl, hpieces, height⟩ := groupsUpTo_sound hfront
    simp only [ip6, hfront] at h
    split at h
    · obtain ⟨ip', hip, heq⟩ := Option.map_eq_some_iff.mp h
      obtain ⟨rfl, rfl⟩ := Prod.mk.inj heq
      rw [Ip6.ofGroups?_eq_some_iff] at hip
      refine ⟨piecesText true front, rfl, ?_⟩
      rw [← joinWith_eq_piecesText]
      exact .full (hip ▸ hpieces)
    · split at h
      · cases h
      · rename_i hlength hdotted
        obtain rfl := eq_false_of_ne_true hdotted
        simp only [Option.bind_eq_bind, Option.bind_eq_some_iff, Prod.exists, char_eq_some_iff,
          Option.pure_def, Option.some.injEq, Prod.mk.injEq] at h
        obtain ⟨_, _, rfl, _, u, rfl, ip', hip, rfl, hrest⟩ := h
        cases hback : groupsUpTo (7 - fs.length) true u with
        | mk bs tail =>
          obtain ⟨dotted', rest'⟩ := tail
          obtain ⟨back, rfl, hpieces', hroom⟩ := groupsUpTo_sound hback
          rw [hback] at hip hrest
          obtain rfl : rest' = rest := hrest
          rw [Ip6.ofGroups?_eq_some_iff] at hip
          have hzeros : 0 < 8 - fs.length - bs.length := by omega
          exact ⟨joinWith [':'] front ++ "::".toList ++ joinWith [':'] back,
            by simp [joinWith_eq_piecesText], .gap hpieces hpieces' hzeros hip.symm⟩

/-- A text that may stand behind an address of version 6. -/
def EndsIp6 (rest : Text) : Prop := ∃ c u, rest = c :: u ∧ (c = '%' ∨ c = ']')

theorem EndsIp6.endsPieces {rest : Text} (h : EndsIp6 rest) : EndsPieces rest := by
  obtain ⟨c, u, rfl, rfl | rfl⟩ := h
  · exact ⟨endsRun_cons (by decide) _, by simp⟩
  · exact ⟨endsRun_cons (by decide) _, by simp⟩

/-- **An address of version 6** is read from each of its texts. -/
theorem ip6_complete {ip : Ip6} {piece rest : Text} (h : SpellsIp6 ip piece)
    (hrest : EndsIp6 rest) : ip6 (piece ++ rest) = some (ip, rest) := by
  cases h with
  | @full dotted pieces hpieces =>
    have hread := groupsUpTo_complete hpieces (Nat.le_of_eq ip.eight) true hrest.endsPieces
    simp [ip6, joinWith_eq_piecesText, hread, ip.eight, Ip6.ofGroups?_eq_some_iff.mpr rfl]
  | @gap dotted fs bs front back zeros hfront hback hzeros hgroups =>
    have height := congrArg List.length hgroups
    simp only [List.length_append, List.length_replicate, ip.eight] at height
    have hcolons : EndsPieces (':' :: ':' :: (piecesText true back ++ rest)) :=
      ⟨endsRun_cons (by decide) _, by rintro u ⟨⟩; exact endsRun_cons (by decide) _⟩
    have hreadFront := groupsUpTo_complete hfront (show fs.length ≤ 8 by omega) true hcolons
    have hreadBack := groupsUpTo_complete hback (show bs.length ≤ 7 - fs.length by omega)
      true hrest.endsPieces
    have hlength : fs.length ≠ 8 := by omega
    have hleft : 8 - fs.length - bs.length = zeros := by omega
    have hip : Ip6.ofGroups? (fs ++ List.replicate zeros 0 ++ bs) = some ip :=
      Ip6.ofGroups?_eq_some_iff.mpr hgroups.symm
    have htext : joinWith [':'] front ++ "::".toList ++ joinWith [':'] back ++ rest =
        piecesText true front ++ ':' :: ':' :: (piecesText true back ++ rest) := by
      simp [joinWith_eq_piecesText]
    rw [htext]
    simp only [ip6, hreadFront, hlength, if_false, Bool.false_eq_true, Option.bind_eq_bind,
      char_cons, Option.bind_some, hreadBack, hleft, hip]
    rfl

/-! ## 7. Hosts -/

/-- A scope is read up to the bracket behind it. -/
theorem scope_eq_iff {s : UInt32} {t u : Text} :
    scope t = (s, ']' :: u) ↔ ∃ piece, t = piece ++ ']' :: u ∧ SpellsScope s piece := by
  have hbracket : EndsRun Char.isDigit (']' :: u) := endsRun_cons (by decide) u
  constructor
  · intro h
    unfold scope at h
    split at h
    · rename_i n after hread
      obtain ⟨rfl, rfl⟩ := Prod.mk.inj h
      simp only [Option.bind_eq_some_iff, Prod.exists, char_eq_some_iff,
        number_eq_some_iff] at hread
      obtain ⟨_, _, rfl, digits, rfl, -, hdigits, hlt⟩ := hread
      refine ⟨'%' :: digits, rfl, .number ?_⟩
      have hn : n.toUInt32.toNat = n := by simpa using hlt
      rwa [hn]
    · obtain ⟨rfl, rfl⟩ := Prod.mk.inj h
      exact ⟨[], rfl, .none⟩
  · rintro ⟨piece, rfl, hpiece⟩
    cases hpiece with
    | none => simp [scope, char]
    | @number s digits hdigits =>
      have hread : number (Nat.pow 2 32) (digits ++ ']' :: u) = some (s.toNat, ']' :: u) :=
        number_eq_some_iff.mpr ⟨digits, rfl, hbracket, hdigits, s.toNat_lt⟩
      simp [scope, hread]

theorem bracketed_eq_some_iff {ip : Ip} {t rest : Text} : bracketed t = some (ip, rest) ↔
    ∃ (ip' : Ip6) (scope : UInt32) (piece s : Text), ip = .v6 ip' scope ∧ SpellsIp6 ip' piece ∧
      SpellsScope scope s ∧ t = '[' :: piece ++ s ++ [']'] ++ rest := by
  constructor
  · intro h
    simp only [bracketed, Option.bind_eq_bind, Option.bind_eq_some_iff, Prod.exists,
      char_eq_some_iff, Option.pure_def, Option.some.injEq, Prod.mk.injEq] at h
    obtain ⟨_, _, rfl, ip', after, hread, _, _, hbracket, rfl, rfl⟩ := h
    obtain ⟨piece, rfl, hpiece⟩ := ip6_sound hread
    obtain ⟨s, rfl, hs⟩ := scope_eq_iff.mp (Prod.ext rfl hbracket)
    exact ⟨ip', _, piece, s, rfl, hpiece, hs, by simp⟩
  · rintro ⟨ip', sc, piece, s, rfl, hpiece, hs, rfl⟩
    have hends : EndsIp6 (s ++ ']' :: rest) := by
      cases hs with
      | none => exact ⟨_, _, rfl, .inr rfl⟩
      | number => exact ⟨_, _, rfl, .inl rfl⟩
    have hscope : scope (s ++ ']' :: rest) = (sc, ']' :: rest) := scope_eq_iff.mpr ⟨s, rfl, hs⟩
    simp [bracketed, ip6_complete hpiece hends, hscope]

/-- **What is read as a host is a text of the address.** -/
theorem host_sound {ip : Ip} {t rest : Text} (h : host t = some (ip, rest)) :
    ∃ piece, t = piece ++ rest ∧ SpellsHost ip piece := by
  unfold host at h
  split at h
  · rename_i ip' after hread
    obtain ⟨rfl, rfl⟩ := Prod.mk.inj (Option.some.inj h)
    exact ⟨ip'.text, (ip4_eq_some_iff.mp hread).1, .v4 ip'⟩
  · obtain ⟨ip', sc, piece, s, rfl, hpiece, hs, rfl⟩ := bracketed_eq_some_iff.mp h
    exact ⟨_, rfl, .v6 hpiece hs⟩

/-- **A text of an address is read as a host** if no digit follows. -/
theorem host_complete {ip : Ip} {piece rest : Text} (h : SpellsHost ip piece)
    (hrest : EndsRun Char.isDigit rest) : host (piece ++ rest) = some (ip, rest) := by
  cases h with
  | v4 ip => simp [host, ip4_eq_some_iff.mpr ⟨rfl, hrest⟩]
  | @v6 ip sc t s ht hs =>
    have hbracket : ip4 ('[' :: t ++ s ++ [']'] ++ rest) = none :=
      @ip4_eq_none [] _ (by simp) (endsRun_cons (by decide) _)
    rw [host, hbracket]
    exact bracketed_eq_some_iff.mpr ⟨ip, sc, t, s, rfl, ht, hs, rfl⟩

/-! ## 8. Socket addresses -/

theorem port_eq_some_iff {p : UInt16} {t rest : Text} : port t = some (p, rest) ↔
    ∃ digits, t = ':' :: digits ++ rest ∧ EndsRun Char.isDigit rest ∧
      SpellsNumber p.toNat digits := by
  simp only [port, Option.bind_eq_bind, Option.bind_eq_some_iff, Prod.exists, char_eq_some_iff,
    number_eq_some_iff, Option.pure_def, Option.some.injEq, Prod.mk.injEq]
  constructor
  · rintro ⟨_, _, rfl, n, _, ⟨digits, rfl, hrest, hdigits, hlt⟩, rfl, rfl⟩
    have hn : n.toUInt16.toNat = n := by simpa using hlt
    exact ⟨digits, rfl, hrest, hn.symm ▸ hdigits⟩
  · rintro ⟨digits, rfl, hrest, hdigits⟩
    exact ⟨(), _, rfl, p.toNat, _, ⟨digits, rfl, hrest, hdigits, p.toNat_lt⟩, by simp, rfl⟩

/-- **Socket addresses** are read from a text of the host, a colon and digits of the port. -/
theorem SocketAddress.read?_eq_some_iff {a : SocketAddress} {t : Text} :
    SocketAddress.read? t = some a ↔
      ∃ h digits, t = h ++ ':' :: digits ∧ SpellsHost a.ip h ∧
        SpellsNumber a.port.toNat digits := by
  constructor
  · intro h
    unfold SocketAddress.read? at h
    split at h
    · rename_i a' hread
      obtain rfl := Option.some.inj h
      obtain ⟨⟨ip, after⟩, hhost, hport⟩ := Option.bind_eq_some_iff.mp hread
      obtain ⟨⟨p, rest⟩, hp, heq⟩ := Option.map_eq_some_iff.mp hport
      obtain ⟨rfl, rfl⟩ := Prod.mk.inj heq
      obtain ⟨piece, rfl, hpiece⟩ := host_sound hhost
      obtain ⟨digits, rfl, -, hdigits⟩ := port_eq_some_iff.mp hp
      exact ⟨piece, digits, by simp, hpiece, hdigits⟩
    · cases h
  · rintro ⟨piece, digits, rfl, hpiece, hdigits⟩
    have hcolon : EndsRun Char.isDigit (':' :: digits) := endsRun_cons (by decide) digits
    have hport : Net.port (':' :: digits) = some (a.port, []) :=
      port_eq_some_iff.mpr ⟨digits, by simp, by rintro c ⟨⟩, hdigits⟩
    rw [SocketAddress.read?, host_complete hpiece hcolon, Option.bind_some, hport]
    rfl

end Net

end IsolatedSite
