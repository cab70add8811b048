/-
# A message on the wire reads back

`Response.read?` looks for the end of the head and for the ends of its lines, takes the status out
of the first line, and cuts each further line at its first colon and space.  Nothing in a header can
mislead it, since a name holds neither colon nor carriage return and a value holds no carriage
return: `read?_wireForm` recovers status, fields and body from every message of which the first line
and the fields are well formed, whatever the body holds.  `read?_encode` is the case of a response
that is written as it stands.
-/
import IsolatedSite.Http.Answer
import IsolatedSite.Proofs.FieldLists
import IsolatedSite.Proofs.HeadBoundary

namespace IsolatedSite.Http

open IsolatedSite.Http.Fields

/-! ## 1. Fields -/

theorem toLower_toUpper (b : UInt8) : Byte.toLower (Byte.toUpper b) = Byte.toLower b := by
  simp only [Byte.toLower, Byte.toUpper, Byte.isLower, Byte.isUpper]
  grind

theorem map_toLower_titleCaseFrom (up : Bool) (name : Bytes) :
    (titleCaseFrom up name).map Byte.toLower = name.map Byte.toLower := by
  induction name generalizing up with
  | nil => rfl
  | cons b bs ih => cases up <;> simp [titleCaseFrom, ih, toLower_toUpper]

theorem toUpper_eq_iff {b c : UInt8} (hc : Byte.isUpper c = false) (hl : Byte.isLower c = false) :
    Byte.toUpper b = c ↔ b = c := by
  simp only [Byte.isUpper, Byte.isLower, Bool.and_eq_false_iff, decide_eq_false_iff_not] at hc hl
  simp only [Byte.toUpper, Byte.isLower]
  grind

/-- An octet that is no letter is in the title case of a name only if it is in the name. -/
theorem mem_titleCaseFrom {up : Bool} {name : Bytes} {c : UInt8} (hc : Byte.isUpper c = false)
    (hl : Byte.isLower c = false) (h : c ∈ titleCaseFrom up name) : c ∈ name := by
  induction name generalizing up with
  | nil => exact h
  | cons b bs ih =>
    rw [titleCaseFrom] at h
    rcases List.mem_cons.mp h with h | h
    · cases up with
      | true => exact List.mem_cons.mpr (Or.inl ((toUpper_eq_iff hc hl).mp h.symm).symm)
      | false => exact List.mem_cons.mpr (Or.inl h)
    · exact List.mem_cons_of_mem _ (ih h)

theorem fieldOfLine?_append {name : Bytes} (h : 58 ∉ name) (value : Bytes) :
    fieldOfLine? (name ++ ascii ": " ++ value) = some (name.map Byte.toLower, value) := by
  induction name with
  | nil => rfl
  | cons x name ih =>
    have hx : x ≠ 58 := fun e => h (by simp [e])
    have hname : 58 ∉ name := fun hm => h (List.mem_cons_of_mem _ hm)
    rw [List.cons_append, List.cons_append, fieldOfLine?.eq_3 _ _ (fun _ hcolon _ => hx hcolon),
      ih hname]
    rfl

namespace Fields

/-- The line of a field, without its end. -/
def lineOf (f : Field) : Bytes := titleCase f.1 ++ ascii ": " ++ f.2

theorem IsSendable.fieldOfLine? {f : Field} (h : IsSendable f) :
    fieldOfLine? (lineOf f) = some f := by
  have hcolon : 58 ∉ titleCase f.1 := fun hm =>
    absurd (h.name_token 58 (mem_titleCaseFrom (by decide) (by decide) hm)) (by decide)
  rw [lineOf, fieldOfLine?_append hcolon, titleCase, map_toLower_titleCaseFrom, h.name_lower]

theorem IsSendable.lineOf_ne_nil (f : Field) : lineOf f ≠ [] := by
  simp [lineOf, ascii]

theorem IsSendable.cr_not_mem {f : Field} (h : IsSendable f) : Byte.cr ∉ lineOf f := by
  intro hm
  rw [lineOf, List.mem_append, List.mem_append] at hm
  rcases hm with (hm | hm) | hm
  · exact absurd (h.name_token _ (mem_titleCaseFrom (by decide) (by decide) hm)) (by decide)
  · exact absurd hm (by decide)
  · exact absurd (List.all_eq_true.mp h.value_valid _ hm) (by decide)

theorem AreSendable.mapM_fieldOfLine? {fs : Fields} (h : AreSendable fs) :
    (fs.map lineOf).mapM fieldOfLine? = some fs := by
  induction fs with
  | nil => rfl
  | cons f fs ih =>
    have hf := (h f (by simp)).fieldOfLine?
    have hfs := ih fun g hg => h g (List.mem_cons_of_mem _ hg)
    simp [hf, hfs]

end Fields

/-! ## 2. The first line -/

/-- The first line, without its end. -/
def firstLineOf (version : Bytes) (s : Status) (reason : Text) : Bytes :=
  version ++ Byte.space :: Decimal.bytes s.code ++
    Byte.space :: (reason.map fun c => c.toNat.toUInt8)

/-- **The status reads back** from behind the eight octets of a version. -/
theorem statusOfLine?_firstLineOf {version : Bytes} (hv : version.length = 8) (s : Status)
    (reason : Text) : statusOfLine? (firstLineOf version s reason) = some s := by
  have hdrop : (firstLineOf version s reason).drop 9 =
      Decimal.bytes s.code ++ Byte.space :: (reason.map fun c => c.toNat.toUInt8) := by
    have hsplit : firstLineOf version s reason = (version ++ [Byte.space]) ++
        (Decimal.bytes s.code ++ Byte.space :: (reason.map fun c => c.toNat.toUInt8)) := by
      simp [firstLineOf]
    rw [hsplit, List.drop_left' (by simp [hv])]
  have hthree := Decimal.length_bytes_eq_three s.inRange.1 s.inRange.2
  rw [statusOfLine?, hdrop, List.take_left' hthree, Decimal.asciiText_bytes, Decimal.value?_ofNat]
  simp [Status.ofNat?, s.inRange]

theorem cr_not_mem_bytes (n : Nat) : Byte.cr ∉ Decimal.bytes n := by
  intro hm
  obtain ⟨c, hc, heq⟩ := List.mem_map.mp hm
  obtain ⟨hlow, hhigh⟩ := Decimal.isPlain_ofNat n c hc
  have hnat : c.toNat.toUInt8.toNat = c.toNat := toNat_toUInt8 (by omega)
  rw [heq] at hnat
  exact absurd hnat (by simp [Byte.cr]; omega)

/-- A version and a reason that keep the first line one line. -/
structure IsFirstLine (version : Bytes) (reason : Text) : Prop where
  length_version : version.length = 8
  cr_not_mem_version : Byte.cr ∉ version
  cr_not_mem_reason : Byte.cr ∉ reason.map fun c => c.toNat.toUInt8

theorem IsFirstLine.cr_not_mem {version : Bytes} {reason : Text} (h : IsFirstLine version reason)
    (s : Status) : Byte.cr ∉ firstLineOf version s reason := by
  have hspace : Byte.cr ≠ Byte.space := by decide
  simp only [firstLineOf, List.mem_append, List.mem_cons, not_or]
  exact ⟨⟨h.cr_not_mem_version, hspace, cr_not_mem_bytes _⟩, hspace, h.cr_not_mem_reason⟩

theorem cr_not_mem_reason (s : Status) {otherwise : Text}
    (h : Byte.cr ∉ otherwise.map fun c => c.toNat.toUInt8) :
    Byte.cr ∉ (s.reason?.getD otherwise).map fun c => c.toNat.toUInt8 := by
  have hall : ∀ p ∈ Status.reasons, Byte.cr ∉ p.2.toList.map fun c => c.toNat.toUInt8 := by
    decide +kernel
  unfold Status.reason?
  cases hreason : Status.reasons.lookup s.code with
  | none => exact h
  | some reason =>
    obtain ⟨before, behind, hsplit, -⟩ := List.lookup_eq_some_iff.mp hreason
    exact hall (s.code, reason) (by simp [hsplit])

theorem isFirstLine_encode (s : Status) :
    IsFirstLine (ascii "HTTP/1.1") (s.reason?.getD "Unknown".toList) :=
  ⟨by decide, by decide, cr_not_mem_reason s (by decide)⟩

/-! ## 3. The whole message -/

/-- The octets of a message: its lines with line ends between them, an empty line and the body. -/
theorem wireForm_eq (version : Bytes) (s : Status) (reason : Text) (fs : Fields) (body : Bytes) :
    statusLine version s reason ++ fs.flatMap fieldLine ++ lineEnd ++ body =
      firstLineOf version s reason ++ (fs.map lineOf).flatMap (fun l => lineEnd ++ l) ++
        (lineEnd ++ lineEnd ++ body) := by
  have hfields : fs.flatMap fieldLine = (fs.map lineOf).flatMap fun l => l ++ lineEnd := by
    rw [List.flatMap_map]
    rfl
  have hfirst : statusLine version s reason = firstLineOf version s reason ++ lineEnd := rfl
  rw [hfirst, hfields]
  simp only [List.append_assoc]
  rw [← List.append_assoc lineEnd, lineEnd_append_flatMap]
  simp only [List.append_assoc]

/-- **A message reads back**: its status, all its fields in order, and its body. -/
theorem read?_wireForm {version : Bytes} {reason : Text} (hline : IsFirstLine version reason)
    (s : Status) {fs : Fields} (hfs : fs.AreSendable) (body : Bytes) :
    Response.read? (statusLine version s reason ++ fs.flatMap fieldLine ++ lineEnd ++ body) =
      some ⟨s, fs, body⟩ := by
  rw [wireForm_eq]
  refine read?_lines (hline.cr_not_mem s) ?_ (statusOfLine?_firstLineOf hline.length_version s _)
    hfs.mapM_fieldOfLine? body
  intro l hl
  obtain ⟨f, hf, rfl⟩ := List.mem_map.mp hl
  exact ⟨IsSendable.lineOf_ne_nil f, (hfs f hf).cr_not_mem⟩

/-- **A response reads back** from its octets, if its fields can be sent: the status, every field
with its octets and in its place, and the body, whatever octets it holds. -/
theorem read?_encode {r : Response} (h : r.fields.AreSendable) :
    Response.read? r.encode = some r :=
  read?_wireForm (isFirstLine_encode r.status) r.status h r.body

/-- A response with a field that is there twice, a value that looks like the end of a head but for
its control characters, blanks and octets beyond ASCII, and a body that begins like a field and
holds the end of a head. -/
def misleading : Response where
  status := ⟨999, by decide⟩
  fields := [(ascii "x-a", ascii " : y: "), (ascii "x-a", [0xFF, 9, 0x80]), (ascii "-x--y", [])]
  body := ascii "X: 1\r\n\r\nHTTP/1.1 200 OK\r\n\r\n"

/-- It reads back. -/
theorem misleading_read : misleading.fields.AreSendable ∧
    Response.read? misleading.encode = some misleading := by
  have hsend : misleading.fields.AreSendable := by decide +kernel
  exact ⟨hsend, read?_encode hsend⟩

end IsolatedSite.Http
