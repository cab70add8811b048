/-
# The address to listen on

Host and port are put together into one text, with a colon between them, and the text is read as a
socket address.  The reader decides anew where the host ends, so this could be at another colon.  It
is not: digits of a port have no colon in them, so the last colon is the one that was put in
(`listenAddress_eq_ok_iff`).  `Settings.listenAddress_keeps_port` says so for all hosts, and that
what is no address by itself is refused, whatever the port.

Not all standard texts of addresses are accepted.  Those of version 6 have colons in them and need
brackets, which are not put around them: `Settings.listenAddress_of_standardText`.
-/
import IsolatedSite.Proofs.AddressTexts
import IsolatedSite.Proofs.SettingsKeys
import IsolatedSite.Startup

namespace IsolatedSite

/-! ## 1. Shapes of hosts -/

namespace Net

theorem Ip4.isDigit_or_dot_of_mem {ip : Ip4} {c : Char} (h : c ∈ ip.text) :
    c.isDigit = true ∨ c = '.' := by
  refine forall_mem_joinWith (P := fun c => c.isDigit = true ∨ c = '.') ?_ ?_ c h
  · simp
  · intro piece hpiece c hc
    obtain ⟨x, -, rfl⟩ := List.mem_map.mp hpiece
    exact .inl (Decimal.isDigit_of_mem_ofNat hc)

theorem Ip4.count_dot_text (ip : Ip4) : ip.text.count '.' = 3 := by
  have hnone : ∀ n, (Decimal.ofNat n).count '.' = 0 := fun n =>
    List.count_eq_zero.mpr fun h => absurd (Decimal.isDigit_of_mem_ofNat h) (by decide)
  simp [Ip4.text_eq, List.count_append, hnone]

theorem Ip4.text_ne_nil (ip : Ip4) : ip.text ≠ [] := by
  intro h
  have hcount := ip.count_dot_text
  simp [h] at hcount

/-- A character that stands inside brackets. -/
def isInBrackets (c : Char) : Bool := c ≠ '[' && c ≠ ']'

theorem isInBrackets_of_isOfPiece {c : Char} (h : isOfPiece c = true) : isInBrackets c = true := by
  by_contra hc
  have hbracket : c = '[' ∨ c = ']' := by
    by_contra hne
    rw [not_or] at hne
    exact hc (by simp [isInBrackets, hne])
  rcases hbracket with rfl | rfl <;> exact absurd h (by decide)

theorem isInBrackets_of_isDigit {c : Char} (h : c.isDigit = true) : isInBrackets c = true :=
  isInBrackets_of_isOfPiece (isOfPiece_of_isDigit (Hex.isDigit_of_decimal h))

theorem SpellsGroups.isOfPiece_of_mem {dotted : Bool} {gs : List UInt16} {pieces : List Text}
    (h : SpellsGroups dotted gs pieces) : ∀ piece ∈ pieces, ∀ c ∈ piece, isOfPiece c = true := by
  induction h with
  | none => simp
  | more hpiece _ ih =>
    rw [List.forall_mem_cons]
    exact ⟨fun c hc => isOfPiece_of_isDigit (hpiece.digits c hc), ih⟩
  | dotted ip =>
    rw [List.forall_mem_singleton]
    intro c hc
    rcases Ip4.isDigit_or_dot_of_mem hc with hdigit | rfl
    · exact isOfPiece_of_isDigit (Hex.isDigit_of_decimal hdigit)
    · decide

theorem SpellsGroups.isInBrackets_joinWith {dotted : Bool} {gs : List UInt16} {pieces : List Text}
    (h : SpellsGroups dotted gs pieces) :
    ∀ c ∈ joinWith [':'] pieces, isInBrackets c = true :=
  forall_mem_joinWith (List.forall_mem_singleton.mpr (by decide)) fun piece hpiece c hc =>
    isInBrackets_of_isOfPiece (h.isOfPiece_of_mem piece hpiece c hc)

theorem SpellsIp6.isInBrackets {ip : Ip6} {t : Text} (h : SpellsIp6 ip t) :
    ∀ c ∈ t, isInBrackets c = true := by
  cases h with
  | full hpieces => exact hpieces.isInBrackets_joinWith
  | gap hfront hback =>
    rw [List.forall_mem_append, List.forall_mem_append]
    exact ⟨⟨hfront.isInBrackets_joinWith, by simp [Net.isInBrackets]⟩, hback.isInBrackets_joinWith⟩

theorem SpellsScope.isInBrackets {scope : UInt32} {s : Text} (h : SpellsScope scope s) :
    ∀ c ∈ s, isInBrackets c = true := by
  cases h with
  | none => simp
  | number hdigits =>
    rw [List.forall_mem_cons]
    exact ⟨by decide, fun c hc => isInBrackets_of_isDigit (hdigits.2.1 c hc)⟩

/-- **A host of version 6** stands in brackets and has no others in it. -/
theorem SpellsHost.exists_bracketed {ip : Ip6} {scope : UInt32} {t : Text}
    (h : SpellsHost (.v6 ip scope) t) :
    ∃ inner, t = '[' :: inner ++ [']'] ∧ ∀ c ∈ inner, isInBrackets c = true := by
  cases h with
  | @v6 _ _ t s ht hs =>
    refine ⟨t ++ s, by simp, ?_⟩
    rw [List.forall_mem_append]
    exact ⟨ht.isInBrackets, hs.isInBrackets⟩

theorem SpellsHost.eq_text {ip : Ip4} {t : Text} (h : SpellsHost (.v4 ip) t) : t = ip.text := by
  cases h
  rfl

/-- **No text around brackets.**  A host of version 6 in another host is all of it. -/
theorem SpellsHost.eq_nil_of_bracketed {ip : Ip6} {scope : UInt32} {a : Ip}
    {front t behind : Text} (h : SpellsHost (.v6 ip scope) t)
    (hall : SpellsHost a (front ++ t ++ behind)) : front = [] ∧ behind = [] := by
  obtain ⟨inner, rfl, hinner⟩ := h.exists_bracketed
  cases a with
  | v4 v4 =>
    have hbracket : '[' ∈ v4.text := by
      rw [← hall.eq_text]
      simp
    exact absurd (Ip4.isDigit_or_dot_of_mem hbracket) (by decide)
  | v6 v6 scope' =>
    obtain ⟨inner', heq, hinner'⟩ := hall.exists_bracketed
    cases front with
    | cons c front =>
      -- a second opening bracket would stand behind the first one
      have htail : front ++ '[' :: (inner ++ ']' :: behind) = inner' ++ [']'] := by
        simpa using (List.cons.inj heq).2
      have hmem : '[' ∈ inner' ++ [']'] := by
        rw [← htail]
        simp
      rcases List.mem_append.mp hmem with hin | hlast
      · exact absurd (hinner' _ hin) (by decide)
      · exact absurd hlast (by decide)
    | nil =>
      have htail : inner ++ ']' :: behind = inner' ++ [']'] := by
        simpa using (List.cons.inj heq).2
      have hends : ∀ u : Text, EndsRun isInBrackets (']' :: u) := endsRun_cons (by decide)
      obtain ⟨-, hbehind⟩ := run_append_inj hinner hinner' (hends _) (hends _) htail
      exact ⟨rfl, (List.cons.inj hbehind).2⟩

/-- **Digits at most around four numbers.**  A host of version 4 in another host without brackets
has digits in front of it and behind it, which belong to the first and to the last number. -/
theorem SpellsHost.isDigit_of_surround {ip : Ip4} {a : Ip} {front t behind : Text}
    (h : SpellsHost (.v4 ip) t) (hall : SpellsHost a (front ++ t ++ behind))
    (hfront : '[' ∉ front) :
    ∀ c ∈ front ++ behind, c.isDigit = true := by
  obtain rfl := h.eq_text
  cases a with
  | v4 v4 =>
    have heq := hall.eq_text
    have hdots := congrArg (List.count '.') heq
    simp only [List.count_append, Ip4.count_dot_text] at hdots
    intro c hc
    have hmem : c ∈ v4.text := by
      rw [← heq]
      rcases List.mem_append.mp hc with hin | hin <;> simp [hin]
    rcases Ip4.isDigit_or_dot_of_mem hmem with hdigit | rfl
    · exact hdigit
    · have hpos := List.count_pos_iff.mpr hc
      rw [List.count_append] at hpos
      omega
  | v6 v6 scope =>
    obtain ⟨inner, heq, -⟩ := hall.exists_bracketed
    cases front with
    | cons c front =>
      obtain ⟨rfl, -⟩ := List.cons.inj heq
      exact absurd List.mem_cons_self hfront
    | nil =>
      obtain ⟨c, u, hu⟩ := List.exists_cons_of_ne_nil ip.text_ne_nil
      rw [hu] at heq
      obtain ⟨rfl, -⟩ := List.cons.inj heq
      have hbracket : '[' ∈ ip.text := by simp [hu]
      exact absurd (Ip4.isDigit_or_dot_of_mem hbracket) (by decide)

theorem SpellsHost.count_bracket {a : Ip} {t : Text} (h : SpellsHost a t) :
    t.count '[' = t.count ']' := by
  have hnone : ∀ {u : Text}, (∀ c ∈ u, isInBrackets c = true) →
      u.count '[' = 0 ∧ u.count ']' = 0 := fun hu =>
    ⟨List.count_eq_zero.mpr fun hc => absurd (hu _ hc) (by decide),
      List.count_eq_zero.mpr fun hc => absurd (hu _ hc) (by decide)⟩
  cases a with
  | v4 ip =>
    have hin : ∀ c ∈ t, isInBrackets c = true := by
      rw [h.eq_text]
      intro c hc
      rcases Ip4.isDigit_or_dot_of_mem hc with hdigit | rfl
      · exact isInBrackets_of_isDigit hdigit
      · decide
    rw [(hnone hin).1, (hnone hin).2]
  | v6 ip scope =>
    obtain ⟨inner, rfl, hinner⟩ := h.exists_bracketed
    simp [List.count_append, hnone hinner]

/-- **No port in a host.** -/
theorem SpellsHost.ne_append_port {a : Ip} {t : Text} (h : SpellsHost a t) (front : Text)
    {digits : Text} (hdigits : ∀ c ∈ digits, c.isDigit = true) : t ≠ front ++ ':' :: digits := by
  intro heq
  cases a with
  | v4 ip =>
    have hcolon : ':' ∈ ip.text := by
      rw [← h.eq_text, heq]
      simp
    exact absurd (Ip4.isDigit_or_dot_of_mem hcolon) (by decide)
  | v6 ip scope =>
    obtain ⟨inner, rfl, -⟩ := h.exists_bracketed
    rcases List.eq_nil_or_concat' (':' :: digits) with hnil | ⟨u, c, hc⟩
    · cases hnil
    · have hmem : c ∈ ':' :: digits := by simp [hc]
      rw [hc, ← List.append_assoc] at heq
      obtain ⟨-, hlast⟩ := List.append_inj' heq rfl
      obtain rfl := (List.cons.inj hlast).1
      rcases List.mem_cons.mp hmem with hcolon | hdigit
      · exact absurd hcolon (by decide)
      · exact absurd (hdigits _ hdigit) (by decide)

theorem SpellsGroups.length_le {dotted : Bool} {gs : List UInt16} {pieces : List Text}
    (h : SpellsGroups dotted gs pieces) : gs.length ≤ pieces.length + 1 := by
  induction h with
  | none => simp
  | more _ _ ih => simpa using ih
  | dotted ip => simp [Ip4.groups]

/-- A text of an address of version 6 without brackets is no host: there are colons in it. -/
theorem SpellsIp6.not_spellsHost {ip : Ip6} {t : Text} (h : SpellsIp6 ip t) (a : Ip) :
    ¬ SpellsHost a t := by
  have hcolon : ':' ∈ t := by
    cases h with
    | @full dotted pieces hpieces =>
      have hlength := hpieces.length_le
      rw [ip.eight] at hlength
      match pieces, hlength with
      | piece :: next :: pieces, _ => simp [joinWith]
    | gap => simp
  intro hhost
  cases a with
  | v4 v4 =>
    rw [hhost.eq_text] at hcolon
    exact absurd (Ip4.isDigit_or_dot_of_mem hcolon) (by decide)
  | v6 v6 scope =>
    obtain ⟨inner, rfl, -⟩ := hhost.exists_bracketed
    exact absurd (h.isInBrackets '[' (by simp)) (by decide)

/-! ## 2. Bound addresses -/

/-- A socket gets the address that it asks for, and the port unless it asks for any. -/
theorem Ports.bind_keeps {ps : Ports} {mayAll : Bool}
    {a b : SocketAddress} (h : ps.bind mayAll a = .ok b) :
    b.ip = a.ip ∧ (a.port ≠ 0 → b.port = a.port) := by
  simp only [Ports.bind] at h
  split at h
  · cases h
  · split at h
    · rename_i hany
      obtain rfl := Except.ok.inj h
      exact ⟨rfl, fun hne => absurd hany hne⟩
    · split at h
      · cases h
      · split at h
        · cases h
        · obtain rfl := Except.ok.inj h
          exact ⟨rfl, fun _ => rfl⟩

end Net

/-! ## 3. The seam -/

namespace Settings

variable {s : Settings}

/-- **Host and port come apart where they were put together.** -/
theorem listenAddress_eq_ok_iff {a : Net.SocketAddress} :
    s.listenAddress = .ok a ↔ Net.SpellsHost a.ip s.server.host ∧ a.port = s.server.port := by
  have hread : s.listenAddress = .ok a ↔ s.address? = some a := by
    unfold listenAddress
    split <;> simp_all
  rw [hread, address?, Net.SocketAddress.read?_eq_some_iff, addressText]
  constructor
  · rintro ⟨h, digits, heq, hhost, -, hdigits, hvalue⟩
    obtain ⟨rfl, rfl⟩ := last_run_inj (p := Char.isDigit) (by decide)
      (fun c hc => Decimal.isDigit_of_mem_ofNat hc) hdigits heq
    refine ⟨hhost, UInt16.toNat_inj.mp ?_⟩
    rw [← hvalue]
    exact Nat.ofDigitChars_ten_toDigits
  · rintro ⟨hhost, hport⟩
    exact ⟨_, _, rfl, hhost, hport ▸ Net.spellsNumber_ofNat _⟩

/-- The host is refused, in a message with the text of host and port. -/
def RefusesHost (s : Settings) : Prop := s.listenAddress = .error (.address s.addressText)

theorem refusesHost_iff : s.RefusesHost ↔ ∀ ip, ¬ Net.SpellsHost ip s.server.host := by
  have herror : s.RefusesHost ↔ ∀ a, s.listenAddress ≠ .ok a := by
    unfold RefusesHost listenAddress
    split <;> simp
  simp only [herror, ne_eq, listenAddress_eq_ok_iff, not_and]
  constructor
  · exact fun h ip hip => h ⟨ip, s.server.port⟩ hip rfl
  · exact fun h a ha => absurd ha (h a.ip)

/-- A host spells one address. -/
theorem spellsHost_unique {ip ip' : Net.Ip} (h : Net.SpellsHost ip s.server.host)
    (h' : Net.SpellsHost ip' s.server.host) : ip = ip' := by
  have hok : s.listenAddress = .ok ⟨ip, s.server.port⟩ :=
    listenAddress_eq_ok_iff.mpr ⟨h, by rfl⟩
  have hok' : s.listenAddress = .ok ⟨ip', s.server.port⟩ :=
    listenAddress_eq_ok_iff.mpr ⟨h', by rfl⟩
  rw [hok] at hok'
  exact congrArg Net.SocketAddress.ip (Except.ok.inj hok')

/-- What is bound has the address that the settings ask for. -/
theorem exists_of_bind_eq_ok {t : Files.Tree} {who : Files.Caller} {cwd : Files.Location}
    {ports : Net.Ports} {site : OpenSite} {b : Net.SocketAddress}
    (h : s.bind t who cwd ports = .ok (site, b)) :
    ∃ a, s.listenAddress = .ok a ∧ b.ip = a.ip ∧ (a.port ≠ 0 → b.port = a.port) := by
  simp only [bind, bind_eq_ok, Except.ok.injEq, Prod.mk.injEq] at h
  obtain ⟨_, -, a, ha, address, haddress, -, rfl⟩ := h
  cases hbind : ports.bind (who = .administrator) a with
  | error why =>
    rw [hbind] at haddress
    cases haddress
  | ok b' =>
    rw [hbind] at haddress
    obtain rfl := Except.ok.inj haddress
    exact ⟨a, ha, Net.Ports.bind_keeps hbind⟩

/-- **A host cannot change the port.**  An address to listen on has the port of the settings and an
IP address that the host spells by itself, and only one can be spelt; so it is for the socket,
unless any port would do.  Every other host is refused: so are hosts that end in a port, hosts whose
brackets do not match, hosts with anything around brackets, and hosts with more than digits around
four numbers. -/
theorem listenAddress_keeps_port (s : Settings) :
    (∀ a, s.listenAddress = .ok a ↔
      Net.SpellsHost a.ip s.server.host ∧ a.port = s.server.port) ∧
    (∀ ip ip', Net.SpellsHost ip s.server.host → Net.SpellsHost ip' s.server.host → ip = ip') ∧
    (∀ t who cwd ports site b, s.bind t who cwd ports = .ok (site, b) →
      Net.SpellsHost b.ip s.server.host ∧ (s.server.port ≠ 0 → b.port = s.server.port)) ∧
    ((∀ ip, ¬ Net.SpellsHost ip s.server.host) → s.RefusesHost) ∧
    (∀ front digits, (∀ c ∈ digits, c.isDigit = true) →
      s.server.host = front ++ ':' :: digits → s.RefusesHost) ∧
    (s.server.host.count '[' ≠ s.server.host.count ']' → s.RefusesHost) ∧
    (∀ ip scope front h behind, Net.SpellsHost (.v6 ip scope) h → front ++ behind ≠ [] →
      s.server.host = front ++ h ++ behind → s.RefusesHost) ∧
    (∀ ip front h behind, Net.SpellsHost (.v4 ip) h → '[' ∉ front →
      (∃ c ∈ front ++ behind, c.isDigit = false) →
      s.server.host = front ++ h ++ behind → s.RefusesHost) := by
  refine ⟨fun a => listenAddress_eq_ok_iff, fun ip ip' => spellsHost_unique, ?_,
    refusesHost_iff.mpr, ?_, ?_, ?_, ?_⟩
  · intro t who cwd ports site b h
    obtain ⟨a, ha, hip, hport⟩ := exists_of_bind_eq_ok h
    obtain ⟨hhost, hsame⟩ := listenAddress_eq_ok_iff.mp ha
    exact ⟨hip ▸ hhost, hsame ▸ hport⟩
  · intro front digits hdigits heq
    exact refusesHost_iff.mpr fun ip hip => hip.ne_append_port front hdigits heq
  · intro hcount
    exact refusesHost_iff.mpr fun ip hip => hcount hip.count_bracket
  · intro ip scope front h behind hspells hne heq
    refine refusesHost_iff.mpr fun a ha => hne ?_
    obtain ⟨rfl, rfl⟩ := hspells.eq_nil_of_bracketed (heq ▸ ha)
    rfl
  · rintro ip front h behind hspells hfront ⟨c, hc, hdigit⟩ heq
    refine refusesHost_iff.mpr fun a ha => ?_
    have hall := hspells.isDigit_of_surround (heq ▸ ha) hfront c hc
    exact absurd hall (by simp [hdigit])

/-- A host of version 6 with digits of either case, four numbers at its end and a scope. -/
example : listenAddress { default with
      server := { default.server with host := "[Ab::1.2.3.4%7]".toList } } =
    .ok ⟨.v6 ⟨[0xAB, 0, 0, 0, 0, 0, 0x102, 0x304], rfl⟩ 7, 8002⟩ := by
  decide

/-! ## 4. Standard texts of addresses -/

/-- **Which addresses can be configured.**  With the standard text of an address as the host, the
address is listened on if it is of version 4; every text of an address of version 6 is refused.
With what the address is written with in front of a port, which has brackets for version 6, it is
listened on in both versions, and the socket has it. -/
theorem listenAddress_of_standardText (s : Settings) (ip : Net.Ip) :
    (s.server.host = ip.text →
      (s.listenAddress = .ok ⟨ip, s.server.port⟩ ↔ ip.isV4 = true) ∧
      (ip.isV4 = false → s.RefusesHost)) ∧
    (∀ ip6, Net.SpellsIp6 ip6 s.server.host → s.RefusesHost) ∧
    (s.server.host = ip.hostText → s.listenAddress = .ok ⟨ip, s.server.port⟩ ∧
      ∀ t who cwd ports site b, s.bind t who cwd ports = .ok (site, b) → b.ip = ip) := by
  have hrefused : ∀ ip6, Net.SpellsIp6 ip6 s.server.host → s.RefusesHost := fun ip6 h =>
    refusesHost_iff.mpr h.not_spellsHost
  have hspelt : Net.SpellsHost ip s.server.host → s.listenAddress = .ok ⟨ip, s.server.port⟩ :=
    fun h => listenAddress_eq_ok_iff.mpr ⟨h, rfl⟩
  refine ⟨fun hhost => ?_, hrefused, fun hhost => ?_⟩
  · cases ip with
    | v4 ip =>
      have hok := hspelt (hhost ▸ .v4 ip)
      exact ⟨⟨fun _ => rfl, fun _ => hok⟩, nofun⟩
    | v6 ip scope =>
      have hno : s.RefusesHost := hrefused ip (hhost ▸ ip.spells_text)
      refine ⟨⟨fun hok => ?_, nofun⟩, fun _ => hno⟩
      rw [hno] at hok
      cases hok
  · have hok := hspelt (hhost ▸ ip.spellsHost_hostText)
    refine ⟨hok, fun t who cwd ports site b hbind => ?_⟩
    obtain ⟨a, ha, hip, -⟩ := exists_of_bind_eq_ok hbind
    rw [hok] at ha
    obtain rfl := Except.ok.inj ha
    exact hip

/-- The loopback address of version 6. -/
def loopback6 : Net.Ip6 := ⟨[0, 0, 0, 0, 0, 0, 0, 1], rfl⟩

/-- The standard text of the loopback address of version 6 is refused. -/
theorem loopback6_refused :
    (Net.Ip.v6 loopback6 0).text = "::1".toList ∧
      listenAddress { default with server := { default.server with host := "::1".toList } } =
        .error (.address "::1:8002".toList) := by
  decide

end Settings

end IsolatedSite
