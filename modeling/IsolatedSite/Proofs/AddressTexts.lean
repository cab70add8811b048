/-
# What addresses are written as

The standard text of an address is one of the texts that spell it, for version 6 with brackets
around it where a port follows (`Ip.spellsHost_hostText`); so the text of a socket address reads
back (`SocketAddress.read?_text`).  Version 6 leaves out its longest run of zero groups, which has
to be there for that (`exists_of_longestZeros`), and writes the last two groups of a mapped address
of version 4 as that address.
-/
import IsolatedSite.Proofs.AddressForms

namespace IsolatedSite

/-! ## 1. Hexadecimal digits -/

namespace Hex

theorem digitChar_spec : ∀ d < 16, isDigit (Nat.digitChar d) = true ∧
    digitValue (Nat.digitChar d) = d := by
  decide

/-- Hexadecimal digits of a number denote it. -/
theorem toDigits_spec (n : Nat) :
    (∀ c ∈ Nat.toDigits 16 n, isDigit c = true) ∧ value (Nat.toDigits 16 n) = n := by
  induction n using Nat.strongRecOn with
  | ind n ih =>
    rcases Nat.lt_or_ge n 16 with hsmall | hlarge
    · obtain ⟨hdigit, hvalue⟩ := digitChar_spec n hsmall
      rw [Nat.toDigits_of_lt_base hsmall]
      exact ⟨by simpa using hdigit, by simpa [value] using hvalue⟩
    · obtain ⟨hfront, hvalue⟩ := ih (n / 16) (by omega)
      obtain ⟨hdigit, hlast⟩ := digitChar_spec (n % 16) (Nat.mod_lt n (by decide))
      rw [Nat.toDigits_of_base_le (by decide) hlarge]
      refine ⟨?_, ?_⟩
      · rw [List.forall_mem_append]
        exact ⟨hfront, by simpa using hdigit⟩
      · rw [value_concat, hvalue, hlast]
        omega

end Hex

namespace Net

/-! ## 2. Groups -/

theorem spellsGroup_toDigits (g : UInt16) : SpellsGroup g (Nat.toDigits 16 g.toNat) where
  nonempty := Nat.toDigits_ne_nil
  short := (Nat.length_toDigits_le_iff (by decide) (by decide)).mpr g.toNat_lt
  digits := (Hex.toDigits_spec g.toNat).1
  value := (Hex.toDigits_spec g.toNat).2

theorem spellsGroups_toDigits (gs : List UInt16) :
    SpellsGroups false gs (gs.map fun g => Nat.toDigits 16 g.toNat) := by
  induction gs with
  | nil => exact .none
  | cons g gs ih => exact .more (spellsGroup_toDigits g) ih

theorem eq_replicate_leadingZeros (gs : List UInt16) :
    ∃ behind, gs = List.replicate (leadingZeros gs) 0 ++ behind := by
  obtain ⟨zeros, behind, rfl, hzeros, hbehind⟩ := exists_run (· == 0) gs
  have hall : zeros = List.replicate zeros.length 0 :=
    List.eq_replicate_iff.mpr ⟨rfl, fun g hg => by simpa using hzeros g hg⟩
  refine ⟨behind, ?_⟩
  rw [leadingZeros, takeWhile_run hzeros hbehind, ← hall]

/-- The longest run of zeros is one: it stands in the list, at the place that is told. -/
theorem exists_of_longestZeros (start : Nat) (gs : List UInt16) :
    ∃ front behind, gs = front ++ List.replicate (longestZeros start gs).2 0 ++ behind ∧
      (longestZeros start gs).1 = start + front.length := by
  induction gs generalizing start with
  | nil => exact ⟨[], [], rfl, rfl⟩
  | cons g gs ih =>
    rw [longestZeros]
    split
    · obtain ⟨front, behind, hgs, hstart⟩ := ih (start + 1)
      refine ⟨g :: front, behind, ?_, ?_⟩
      · conv_lhs => rw [hgs]
        rfl
      · rw [hstart, List.length_cons]
        omega
    · obtain ⟨behind, hbehind⟩ := eq_replicate_leadingZeros (g :: gs)
      exact ⟨[], behind, hbehind, rfl⟩

/-- The two groups of a mapped address are those that its four numbers make. -/
theorem groups_of_halves (x y : UInt16) :
    (Ip4.mk (x >>> 8).toUInt8 x.toUInt8 (y >>> 8).toUInt8 y.toUInt8).groups = [x, y] := by
  have hhalves : ∀ z : UInt16, (z >>> 8).toUInt8.toUInt16 * 256 + z.toUInt8.toUInt16 = z := by
    intro z
    have hz := z.toNat_lt
    rw [← UInt16.toNat_inj]
    simp [Nat.shiftRight_eq_div_pow]
    omega
  rw [Ip4.groups, hhalves, hhalves]

/-! ## 3. Addresses of version 6 -/

theorem Ip6.groups_of_mapped? {ip : Ip6} {v4 : Ip4} (h : ip.mapped? = some v4) :
    ip.groups = List.replicate 5 0 ++ 0xFFFF :: v4.groups := by
  unfold Ip6.mapped? at h
  split at h
  · rename_i x y hgroups
    obtain rfl := Option.some.inj h
    rw [hgroups, groups_of_halves]
    rfl
  · cases h

/-- **The standard text** of an address of version 6 spells it. -/
theorem Ip6.spells_text (ip : Ip6) : SpellsIp6 ip ip.text := by
  unfold Ip6.text
  split
  · rename_i v4 hmapped
    have hffff : SpellsGroup 0xFFFF "ffff".toList := spellsGroup_toDigits 0xFFFF
    have htext : "::ffff:".toList ++ v4.text =
        joinWith [':'] [] ++ "::".toList ++ joinWith [':'] ["ffff".toList, v4.text] := by
      simp [joinWith]
    rw [htext]
    exact .gap .none (.more hffff (.dotted v4)) (show 0 < 5 by decide) (groups_of_mapped? hmapped)
  · obtain ⟨front, behind, hgroups, hstart⟩ := exists_of_longestZeros 0 ip.groups
    cases hlongest : longestZeros 0 ip.groups with
    | mk start len =>
      rw [hlongest, Nat.zero_add] at hstart
      rw [hlongest] at hgroups
      obtain rfl : start = front.length := hstart
      dsimp only at hgroups ⊢
      split
      · rename_i hlen
        have hfront : ip.groups.take front.length = front := by
          rw [hgroups, List.append_assoc, List.take_left]
        have hbehind : ip.groups.drop (front.length + len) = behind := by
          have hlength : front.length + len =
              (front ++ List.replicate len (0 : UInt16)).length := by
            simp
          rw [hgroups, hlength, List.drop_left]
        rw [hfront, hbehind]
        exact .gap (spellsGroups_toDigits front) (spellsGroups_toDigits behind) (by omega) hgroups
      · exact .full (spellsGroups_toDigits ip.groups)

/-! ## 4. Hosts and socket addresses -/

theorem spellsNumber_ofNat (n : Nat) : SpellsNumber n (Decimal.ofNat n) :=
  Decimal.value?_eq_some_iff.mp (Decimal.value?_ofNat n)

/-- **The host part** that an address is written with spells it. -/
theorem Ip.spellsHost_hostText (ip : Ip) : SpellsHost ip ip.hostText := by
  cases ip with
  | v4 ip => exact .v4 ip
  | v6 ip scope =>
    have hscope : SpellsScope scope
        (if scope = 0 then [] else '%' :: Decimal.ofNat scope.toNat) := by
      split
      · rename_i hzero
        exact hzero ▸ .none
      · exact .number (spellsNumber_ofNat scope.toNat)
    exact .v6 ip.spells_text hscope

/-- **Socket addresses read back** from their texts. -/
theorem SocketAddress.read?_text (a : SocketAddress) : SocketAddress.read? a.text = some a :=
  SocketAddress.read?_eq_some_iff.mpr
    ⟨a.ip.hostText, _, rfl, a.ip.spellsHost_hostText, spellsNumber_ofNat a.port.toNat⟩

end Net

end IsolatedSite
