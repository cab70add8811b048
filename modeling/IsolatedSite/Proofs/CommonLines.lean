/-
# Common log lines

Nothing is escaped in the common log format.  A reader finds the parts of a line all the same
(`readCommon?`): a client, a method and a version hold no spaces, and neither do the path and the
query of a request, whatever else they hold; a time holds no bracket, and a path no question mark.

So the line of an entry for a request (`IsOfRequest`) is one line, and tells everything that was
written in it (`common_line_sound`).
-/
import IsolatedSite.Proofs.AccessRecords
import IsolatedSite.Proofs.Cutting
import IsolatedSite.Proofs.LineBreaks
import IsolatedSite.Proofs.TimeTexts

namespace IsolatedSite

open IsolatedSite.Http

/-! ## 1. Words -/

/-- A text without spaces and line breaks. -/
def Text.IsWord (t : Text) : Prop := ∀ c ∈ t, c ≠ ' ' ∧ c ≠ '\n' ∧ c ≠ '\r'

-- by the list, and not by going through all characters
instance (t : Text) : Decidable (Text.IsWord t) :=
  List.decidableBAll (fun c => c ≠ ' ' ∧ c ≠ '\n' ∧ c ≠ '\r') t

namespace Text

theorem isWord_append {s t : Text} : IsWord (s ++ t) ↔ IsWord s ∧ IsWord t :=
  List.forall_mem_append

theorem IsWord.isOneLine {t : Text} (h : IsWord t) : IsOneLine t := fun c hc => (h c hc).2

theorem IsWord.not_mem_space {t : Text} (h : IsWord t) : ' ' ∉ t := fun hmem => (h _ hmem).1 rfl

/-- A text none of whose octets is that of a space or of a line break. -/
theorem isWord_of_encode {t : Text}
    (h : ∀ b ∈ Utf8.encode t, b ≠ Byte.space ∧ b ≠ Byte.lf ∧ b ≠ Byte.cr) : IsWord t := by
  have hout : ∀ {b : UInt8}, b ≤ 0x7F → b ∉ Utf8.encode t → Char.ofNat b.toNat ∉ t := fun hb =>
    mt (Utf8.mem_encode_iff hb).mpr
  intro c hc
  refine ⟨?_, ?_, ?_⟩
  · rintro rfl
    exact hout (b := Byte.space) (by decide) (fun hmem => (h _ hmem).1 rfl) hc
  · rintro rfl
    exact hout (b := Byte.lf) (by decide) (fun hmem => (h _ hmem).2.1 rfl) hc
  · rintro rfl
    exact hout (b := Byte.cr) (by decide) (fun hmem => (h _ hmem).2.2 rfl) hc

end Text

/-- **A method** is a word. -/
theorem isWord_of_isToken {m : Bytes} (h : isToken m = true) : Text.IsWord (asciiText m) := by
  have hbyte : ∀ b, isTokenByte b = true →
      Char.ofNat b.toNat ≠ ' ' ∧ Char.ofNat b.toNat ≠ '\n' ∧ Char.ofNat b.toNat ≠ '\r' :=
    Percent.forall_octet (by decide +kernel)
  rw [isToken, Bool.and_eq_true] at h
  intro c hc
  obtain ⟨b, hb, rfl⟩ := List.mem_map.mp hc
  exact hbyte b (List.all_eq_true.mp h.2 b hb)

namespace Http.Target.IsWellFormed

variable {target : Target} (h : target.IsWellFormed)

include h

/-- **The path of a target** is a word. -/
theorem isWord_path : Text.IsWord target.path := by
  have hbyte : ∀ b, isPathByte b = true → b ≠ Byte.space ∧ b ≠ Byte.lf ∧ b ≠ Byte.cr :=
    Percent.forall_octet (by decide +kernel)
  exact Text.isWord_of_encode fun b hb => hbyte b (h.path b hb)

/-- There is no question mark in it. -/
theorem not_mem_path : '?' ∉ target.path := by
  have hmark : '?' ∈ target.path ↔ 63 ∈ Utf8.encode target.path :=
    (Utf8.mem_encode_iff (b := 63) (by decide)).symm
  exact fun hmem => (ne_of_isPathByte (h.path 63 (hmark.mp hmem))).1 rfl

/-- **The query of a target** is a word. -/
theorem isWord_query {query : Text} (hquery : target.query = some query) : Text.IsWord query := by
  have hbyte : ∀ b, isQueryByte b = true → b ≠ Byte.space ∧ b ≠ Byte.lf ∧ b ≠ Byte.cr :=
    Percent.forall_octet (by decide +kernel)
  exact Text.isWord_of_encode fun b hb => hbyte b (h.query query hquery b hb)

end Http.Target.IsWellFormed

/-! ## 2. Addresses -/

namespace Net

/-- The digits of a number in some base.  The induction is on the number. -/
theorem exists_digitChar_of_mem_toDigits {base n : Nat} (hbase : 1 < base) {c : Char}
    (h : c ∈ Nat.toDigits base n) : ∃ d < base, c = Nat.digitChar d := by
  induction n using Nat.strongRecOn with
  | ind n ih =>
    by_cases hn : n < base
    · rw [Nat.toDigits_of_lt_base hn, List.mem_singleton] at h
      exact ⟨n, hn, h⟩
    · rw [Nat.toDigits_of_base_le hbase (Nat.le_of_not_lt hn), List.mem_append,
        List.mem_singleton] at h
      rcases h with h | h
      · exact ih _ (Nat.div_lt_self (by omega) hbase) h
      · exact ⟨n % base, Nat.mod_lt _ (by omega), h⟩

theorem isWord_toDigits {base : Nat} (hbase : 1 < base) (hmax : base ≤ 16) (n : Nat) :
    Text.IsWord (Nat.toDigits base n) := by
  have hdigit : ∀ d < 16, Text.IsWord [Nat.digitChar d] := by decide
  intro c hc
  obtain ⟨d, hd, rfl⟩ := exists_digitChar_of_mem_toDigits hbase hc
  exact hdigit d (by omega) _ (List.mem_singleton_self _)

theorem Ip4.isWord_text (ip : Ip4) : Text.IsWord ip.text := by
  refine forall_mem_joinWith (show Text.IsWord ['.'] by decide) ?_
  intro piece hpiece
  obtain ⟨x, -, rfl⟩ := List.mem_map.mp hpiece
  exact isWord_toDigits (by decide) (by decide) x.toNat

theorem isWord_groupsText (gs : List UInt16) : Text.IsWord (groupsText gs) := by
  refine forall_mem_joinWith (show Text.IsWord [':'] by decide) ?_
  intro piece hpiece
  obtain ⟨g, -, rfl⟩ := List.mem_map.mp hpiece
  exact isWord_toDigits (by decide) (by decide) g.toNat

theorem Ip6.isWord_text (ip : Ip6) : Text.IsWord ip.text := by
  have hmapped : Text.IsWord "::ffff:".toList := by decide
  have hgap : Text.IsWord "::".toList := by decide
  unfold Ip6.text
  split
  · exact Text.isWord_append.mpr ⟨hmapped, Ip4.isWord_text _⟩
  · dsimp only
    split
    · exact Text.isWord_append.mpr
        ⟨Text.isWord_append.mpr ⟨isWord_groupsText _, hgap⟩, isWord_groupsText _⟩
    · exact isWord_groupsText _

/-- **An address** is a word. -/
theorem Ip.isWord_text (ip : Ip) : Text.IsWord ip.text := by
  cases ip with
  | v4 ip => exact ip.isWord_text
  | v6 ip scope => exact ip.isWord_text

end Net

namespace AccessEntry

open Connection

/-! ## 3. Entries for requests -/

/-- An entry for a request: it describes a head with a method and a target, and has any status and
any number of octets. -/
def IsOfRequest (e : AccessEntry) : Prop :=
  ∃ w h t, isToken h.method = true ∧ Target.parse? h.target = some t ∧ e.Describes w h t

theorem isOfRequest_entryOf {h : Head} {t : Target} (hmethod : isToken h.method = true)
    (ht : Target.parse? h.target = some t) (w : Surroundings) (r : Response) :
    (entryOf w ⟨h.method, t, h.version, fieldsOf h⟩ r).IsOfRequest :=
  ⟨w, h, t, hmethod, ht, describes_entryOf r⟩

/-- **What a connection records** of a head that is passed on is an entry of this kind. -/
theorem isOfRequest_of_isRecorded {site : OpenSite} {w : Surroundings} {f : AccessFormat}
    {h : Head} {o : Outcome} {e : AccessEntry} {sent : Response} {incoming : Incoming Trouble}
    (hpass : passedOn incoming = some h) (hrecorded : IsRecorded site w f h o e sent) :
    e.IsOfRequest := by
  obtain ⟨read, -, hverdict⟩ := passedOn_eq_some_iff.mp hpass
  obtain ⟨⟨rest, hscan⟩, -⟩ := Head.verdict?_eq_ok_iff.mp hverdict
  obtain ⟨t, ht, hdescribes⟩ := hrecorded.describes
  exact ⟨w, h, t, Head.isToken_method_of_scan hscan, ht, hdescribes⟩

/-- What holds of the parts of an entry for a request. -/
structure HasWords (e : AccessEntry) : Prop where
  client : e.client.IsWord
  method : e.method.IsWord
  path : e.path.IsWord
  noMark : '?' ∉ e.path
  query : ∀ query, e.query = some query → query.IsWord
  httpVersion : e.httpVersion.IsWord
  noQuote : '"' ∉ e.httpVersion

theorem IsOfRequest.hasWords {e : AccessEntry} (h : e.IsOfRequest) : e.HasWords := by
  obtain ⟨w, head, t, hmethod, ht, hdescribes⟩ := h
  have htarget := Target.isWellFormed_of_parse? ht
  refine ⟨?_, ?_, ?_, ?_, ?_, ?_, ?_⟩
  · rw [hdescribes.client]
    exact w.peer.isWord_text
  · rw [hdescribes.method]
    exact isWord_of_isToken hmethod
  · rw [hdescribes.path]
    exact htarget.isWord_path
  · rw [hdescribes.path]
    exact htarget.not_mem_path
  · rw [hdescribes.query]
    exact fun query => htarget.isWord_query
  · rw [hdescribes.httpVersion]
    cases head.version with
    | http10 => exact show Text.IsWord "1.0".toList by decide
    | http11 => exact show Text.IsWord "1.1".toList by decide
  · rw [hdescribes.httpVersion]
    cases head.version with
    | http10 => exact show '"' ∉ "1.0".toList by decide
    | http11 => exact show '"' ∉ "1.1".toList by decide

theorem HasWords.isWord_uri {e : AccessEntry} (h : e.HasWords) : e.uri.IsWord := by
  have hmark : Text.IsWord ['?'] := by decide
  unfold uri
  cases hquery : e.query with
  | none => exact h.path
  | some query => exact Text.isWord_append.mpr ⟨h.path,
      Text.isWord_append.mpr ⟨hmark, h.query query hquery⟩⟩

/-! ## 4. Reading a line -/

/-- What a common log line tells of an entry. -/
structure CommonFields where
  client : Text
  time : Text
  method : Text
  path : Text
  query : Option Text
  httpVersion : Text
  status : Nat
  bodyBytes : Option Nat
  deriving DecidableEq, Repr

/-- The parts of an entry that are written, the time as it is written. -/
def commonFields (e : AccessEntry) : CommonFields :=
  ⟨e.client, e.time.commonText, e.method, e.path, e.query, e.httpVersion, e.status, e.bodyBytes⟩

/-- A target is cut at its first question mark. -/
def readUri (uri : Text) : Text × Option Text :=
  match cutAt '?' uri with
  | some (path, query) => (path, some query)
  | none => (uri, none)

/-- A number of octets, or a dash for none. -/
def readBytes? (t : Text) : Option (Option Nat) :=
  if t = ['-'] then some none else (Decimal.value? t).map some

/-- Who sent a request and when: up to the bracket behind the time. -/
def readSender? (line : Text) : Option (Text × Text × Text) := do
  let (client, line) ← cutAt ' ' line
  let line ← afterStart? "- - [".toList line
  let (time, line) ← cutAt ']' line
  some (client, time, line)

/-- What was asked for: the first line of the request, up to the quotation mark behind it. -/
def readRequest? (line : Text) : Option (Text × Text × Text × Text) := do
  let line ← afterStart? " \"".toList line
  let (method, line) ← cutAt ' ' line
  let (uri, line) ← cutAt ' ' line
  let line ← afterStart? "HTTP/".toList line
  let (httpVersion, line) ← cutAt '"' line
  some (method, uri, httpVersion, line)

/-- What it was answered with: up to a space or to the end. -/
def readAnswer? (line : Text) : Option (Nat × Option Nat × Text) := do
  let line ← afterStart? " ".toList line
  let (status, line) ← cutAt ' ' line
  let status ← Decimal.value? status
  let bodyBytes ← readBytes? (line.takeWhile (· != ' '))
  some (status, bodyBytes, line.dropWhile (· != ' '))

/-- Reads a common log line off the beginning of a text. -/
def readCommon? (line : Text) : Option (CommonFields × Text) := do
  let (client, time, line) ← readSender? line
  let (method, uri, httpVersion, line) ← readRequest? line
  let (status, bodyBytes, line) ← readAnswer? line
  let (path, query) := readUri uri
  some (⟨client, time, method, path, query, httpVersion, status, bodyBytes⟩, line)

theorem HasWords.readUri_uri {e : AccessEntry} (h : e.HasWords) :
    readUri e.uri = (e.path, e.query) := by
  unfold readUri uri
  cases e.query with
  | none => simp only [cutAt_of_not_mem h.noMark]
  | some query => simp only [cutAt_append h.noMark]

theorem readBytes?_bytesText (e : AccessEntry) : readBytes? e.bytesText = some e.bodyBytes := by
  unfold bytesText
  cases e.bodyBytes with
  | none => rfl
  | some n =>
    have hdash : Decimal.ofNat n ≠ ['-'] := by
      intro heq
      exact absurd (Decimal.isDigit_of_mem_ofNat (n := n) (c := '-') (by simp [heq])) (by decide)
    rw [Option.map_some, orDash, Option.getD_some, readBytes?, if_neg hdash, Decimal.value?_ofNat,
      Option.map_some]

theorem isWord_ofNat (n : Nat) : Text.IsWord (Decimal.ofNat n) :=
  Net.isWord_toDigits (by decide) (by decide) n

theorem isWord_bytesText (e : AccessEntry) : e.bytesText.IsWord := by
  unfold bytesText
  cases e.bodyBytes with
  | none => exact show Text.IsWord ['-'] by decide
  | some n => exact isWord_ofNat n

/-- A word in front of a space, or at the end. -/
theorem takeWhile_word {t rest : Text} (ht : t.IsWord) (hrest : ∀ c ∈ rest.head?, c = ' ') :
    (t ++ rest).takeWhile (· != ' ') = t ∧ (t ++ rest).dropWhile (· != ' ') = rest := by
  have hall : ∀ c ∈ t, (c != ' ') = true := fun c hc => bne_iff_ne.mpr (ht c hc).1
  have hends : EndsRun (· != ' ') rest := fun c hc => by simp [hrest c hc]
  exact ⟨takeWhile_run hall hends, dropWhile_run hall hends⟩

theorem HasWords.readSender?_append {e : AccessEntry} (h : e.HasWords) (rest : Text) :
    readSender? (e.client ++ ' ' :: ("- - [".toList ++ (e.time.commonText ++ ']' :: rest))) =
      some (e.client, e.time.commonText, rest) := by
  have htime : ']' ∉ e.time.commonText :=
    (Calendar.isTimeText_commonText e.time).not_mem (by decide)
  rw [readSender?, cutAt_append h.client.not_mem_space]
  simp only [Option.bind_eq_bind, Option.bind_some, afterStart?_append, cutAt_append htime]

theorem HasWords.readRequest?_append {e : AccessEntry} (h : e.HasWords) (rest : Text) :
    readRequest? (" \"".toList ++ (e.method ++ ' ' :: (e.uri ++ ' ' :: ("HTTP/".toList ++
      (e.httpVersion ++ '"' :: rest))))) = some (e.method, e.uri, e.httpVersion, rest) := by
  rw [readRequest?, afterStart?_append]
  simp only [Option.bind_eq_bind, Option.bind_some, cutAt_append h.method.not_mem_space,
    cutAt_append h.isWord_uri.not_mem_space, afterStart?_append, cutAt_append h.noQuote]

theorem readAnswer?_append (e : AccessEntry) {rest : Text} (hrest : ∀ c ∈ rest.head?, c = ' ') :
    readAnswer? (" ".toList ++ (Decimal.ofNat e.status ++ ' ' :: (e.bytesText ++ rest))) =
      some (e.status, e.bodyBytes, rest) := by
  obtain ⟨hbytes, hbehind⟩ := takeWhile_word (isWord_bytesText e) hrest
  rw [readAnswer?, afterStart?_append]
  simp only [Option.bind_eq_bind, Option.bind_some,
    cutAt_append (isWord_ofNat e.status).not_mem_space, Decimal.value?_ofNat, hbytes, hbehind,
    readBytes?_bytesText]

/-- The line with its parts one behind the other. -/
theorem commonLine_append (e : AccessEntry) (rest : Text) :
    e.commonLine ++ rest = e.client ++ ' ' :: ("- - [".toList ++ (e.time.commonText ++ ']' ::
      (" \"".toList ++ (e.method ++ ' ' :: (e.uri ++ ' ' :: ("HTTP/".toList ++ (e.httpVersion ++
        '"' :: (" ".toList ++ (Decimal.ofNat e.status ++ ' ' :: (e.bytesText ++ rest)))))))))) := by
  simp [commonLine, requestLine]

/-- **What is read of a line** are the parts that were written, whatever follows behind a space. -/
theorem HasWords.readCommon?_append {e : AccessEntry} (h : e.HasWords) (rest : Text)
    (hrest : ∀ c ∈ rest.head?, c = ' ') :
    readCommon? (e.commonLine ++ rest) = some (e.commonFields, rest) := by
  rw [commonLine_append, readCommon?, h.readSender?_append]
  simp only [Option.bind_eq_bind, Option.bind_some, h.readRequest?_append,
    readAnswer?_append e hrest, h.readUri_uri]
  rfl

/-! ## 5. Lines -/

/-- The parts that are written make the line. -/
theorem commonLine_eq_of_commonFields_eq {e e' : AccessEntry}
    (h : e.commonFields = e'.commonFields) : e.commonLine = e'.commonLine := by
  obtain ⟨hclient, htime, hmethod, hpath, hquery, hversion, hstatus, hbytes⟩ :=
    CommonFields.mk.inj h
  have huri : e.uri = e'.uri := by rw [uri, uri, hpath, hquery]
  have hoctets : e.bytesText = e'.bytesText := by rw [bytesText, bytesText, hbytes]
  have hrequest : e.requestLine = e'.requestLine := by
    rw [requestLine, requestLine, hmethod, huri, hversion]
  rw [commonLine, commonLine, hclient, htime, hrequest, hstatus, hoctets]

theorem HasWords.isOneLine_commonLine {e : AccessEntry} (h : e.HasWords) :
    Text.IsOneLine e.commonLine := by
  have htime : Text.IsOneLine e.time.commonText :=
    (Calendar.isTimeText_commonText e.time).isPlain.isOneLine
  have hmiddle : Text.IsOneLine " - - [".toList := by decide
  have hrequest : Text.IsOneLine "] \"".toList := by decide
  have hspace : Text.IsOneLine [' '] := by decide
  have hprotocol : Text.IsOneLine " HTTP/".toList := by decide
  have hstatus : Text.IsOneLine "\" ".toList := by decide
  have hline : Text.IsOneLine e.requestLine :=
    ((h.method.isOneLine.append (hspace.append h.isWord_uri.isOneLine)).append hprotocol).append
      h.httpVersion.isOneLine
  exact ((((((h.client.isOneLine.append hmiddle).append htime).append hrequest).append hline).append
    hstatus).append (isWord_ofNat e.status).isOneLine).append
      (hspace.append (isWord_bytesText e).isOneLine)

/-- **Common log lines are sound.**  The line of an entry for a request holds no line break, and
the reader, who knows the line alone, finds in it the client, the time as it is written, the method,
the path, the query, the version, the status and the number of octets, and nothing behind them.  So
two such lines are the same exactly if the entries agree in all these parts, where an empty query
is not the same as none. -/
theorem common_line_sound {e : AccessEntry} (h : e.IsOfRequest) :
    Text.IsOneLine (e.line .common) ∧ readCommon? (e.line .common) = some (e.commonFields, []) ∧
      ∀ e' : AccessEntry, e'.IsOfRequest →
        (e.line .common = e'.line .common ↔ e.commonFields = e'.commonFields) := by
  have hread : ∀ {e : AccessEntry}, e.IsOfRequest →
      readCommon? (e.line .common) = some (e.commonFields, []) := by
    intro e h
    have hparts := h.hasWords.readCommon?_append [] (by simp)
    rwa [List.append_nil] at hparts
  refine ⟨h.hasWords.isOneLine_commonLine, hread h, ?_⟩
  intro e' h'
  constructor
  · intro hline
    have hsame := hread h
    rw [hline, hread h'] at hsame
    exact (Prod.mk.inj (Option.some.inj hsame)).1.symm
  · exact commonLine_eq_of_commonFields_eq

/-- The head of a request for a path with a quotation mark, a bracket and a letter that is not
ASCII, with an empty query or without one. -/
def headWithMarks (query : Bytes) : Head where
  method := ascii "GET"
  target := ascii "/\"]" ++ [0xC3, 0xA9] ++ query
  version := .http11
  fields := []

/-- The entry for such a request. -/
def entryWithMarks (query : Option Text) : AccessEntry :=
  entryOf loggingSurroundings
    ⟨ascii "GET", ⟨"/\"]é".toList, query⟩, .http11, fieldsOf (headWithMarks [])⟩ ⟨.ok, [], []⟩

/-- Its line is read back, and is another one without the query. -/
theorem entryWithMarks_sound :
    (entryWithMarks (some [])).IsOfRequest ∧
      readCommon? ((entryWithMarks (some [])).line .common) =
        some ((entryWithMarks (some [])).commonFields, []) ∧
      (entryWithMarks (some [])).line .common ≠ (entryWithMarks none).line .common := by
  have hmethod : isToken (ascii "GET") = true := by decide
  have hquery : Target.parse? (headWithMarks (ascii "?")).target =
      some ⟨"/\"]é".toList, some []⟩ := by decide +kernel
  have hnone : Target.parse? (headWithMarks []).target = some ⟨"/\"]é".toList, none⟩ := by
    decide +kernel
  have h : (entryWithMarks (some [])).IsOfRequest :=
    isOfRequest_entryOf (h := headWithMarks (ascii "?")) hmethod hquery loggingSurroundings _
  have h' : (entryWithMarks none).IsOfRequest :=
    isOfRequest_entryOf (h := headWithMarks []) hmethod hnone loggingSurroundings _
  obtain ⟨-, hread, hsame⟩ := common_line_sound h
  refine ⟨h, hread, ?_⟩
  intro heq
  cases congrArg CommonFields.query ((hsame _ h').mp heq)

end AccessEntry

end IsolatedSite
