/-
# Types of files by their names

The type of a file hangs on the last name of its path.  Which name that is, is said here without
cutting the path up (`Path.EndsIn`, `fileName?_eq_some_iff`): in front of it stands nothing or a
slash, and behind it slashes at most, and dots behind slashes.  Likewise for the extension of a name
(`Path.HasExtension`): what follows a dot, with something in front of it and no dot behind.

`type_by_last_extension` is about every path: with an extension that can be read it has the type of
the extension in small letters, in whatever folder, behind whatever stem and with whatever of no
meaning at its end; without one its type is unknown.
-/
import IsolatedSite.Http.ContentType
import IsolatedSite.Proofs.PathTranslation
import IsolatedSite.Proofs.WellFormedOctets

namespace IsolatedSite

namespace Path

open Files (IsName)

variable {front idle name ext : Bytes}

/-! ## 1. What names nothing at the end of a path -/

/-- Slashes, and dots behind slashes. -/
inductive IsIdle : Bytes → Prop where
  | nil : IsIdle []
  | slash {rest : Bytes} : IsIdle rest → IsIdle (slash :: rest)
  | here {rest : Bytes} : IsIdle rest → IsIdle (slash :: dot :: rest)

theorem IsIdle.append {rest : Bytes} (h : IsIdle idle) (hrest : IsIdle rest) :
    IsIdle (idle ++ rest) := by
  induction h with
  | nil => exact hrest
  | slash _ ih => exact .slash ih
  | here _ ih => exact .here ih

theorem components_append_idle (h : IsIdle idle) {p : Path} (hp : p ≠ []) :
    components (p ++ idle) = components p := by
  induction h generalizing p with
  | nil => rw [List.append_nil]
  | slash _ ih =>
    have hempty : (splitAtEach Path.slash []).filterMap component? = [] := by decide
    rw [← List.singleton_append, ← List.append_assoc, ih (by simp),
      components_append_slash hp, hempty, List.append_nil]
  | @here rest _ ih =>
    have hdot : (splitAtEach Path.slash [dot]).filterMap component? = [] := by decide
    have hsplit : p ++ Path.slash :: dot :: rest = (p ++ [Path.slash, dot]) ++ rest := by simp
    rw [hsplit, ih (by simp), components_append_slash hp, hdot, List.append_nil]

/-- **What names nothing at the end** is passed over.  The empty path is a case of its own, since a
slash makes it the root; that has no name either. -/
theorem fileName?_append_idle (h : IsIdle idle) (p : Path) :
    fileName? (p ++ idle) = fileName? p := by
  by_cases hp : p = []
  · subst hp
    cases h with
    | nil => rfl
    | @slash rest h =>
      have hroot : components (Path.slash :: rest) = [.root] :=
        components_append_idle h (p := [Path.slash]) (by simp)
      rw [List.nil_append, fileName?, hroot]
      rfl
    | @here rest h =>
      have hroot : components (Path.slash :: dot :: rest) = [.root] :=
        components_append_idle h (p := [Path.slash, dot]) (by simp)
      rw [List.nil_append, fileName?, hroot]
      rfl
  · rw [fileName?, components_append_idle h hp, fileName?]

/-! ## 2. The last name -/

/-- What may stand in front of a name: nothing, or anything that ends in a slash. -/
def IsLeading (front : Bytes) : Prop := front = [] ∨ ∃ above, front = above ++ [slash]

theorem isLeading_concat (above : Bytes) : IsLeading (above ++ [slash]) := Or.inr ⟨above, rfl⟩

theorem component?_eq_none_iff {piece : Bytes} :
    component? piece = none ↔ piece = [] ∨ piece = [dot] := by
  unfold component?
  split
  · simp_all
  · split <;> simp_all

/-- A piece without a slash is a name if it stands for one. -/
theorem isName_of_component? {piece : Bytes} (hslash : slash ∉ piece)
    (h : component? piece = some (.normal name)) : piece = name ∧ IsName name := by
  unfold component? at h
  split at h
  · cases h
  · rename_i hnothing
    split at h
    · cases h
    · rename_i hup
      obtain rfl := Component.normal.inj (Option.some.inj h)
      obtain ⟨hempty, hhere⟩ := not_or.mp hnothing
      exact ⟨rfl, hempty, hslash, hhere, hup⟩

/-- The last piece of a path is its last component, if it is one. -/
theorem getLast?_components {piece : Bytes} {c : Component} (hfront : IsLeading front)
    (hslash : slash ∉ piece) (hc : component? piece = some c) :
    (components (front ++ piece)).getLast? = some c := by
  have hpiece : (splitAtEach slash piece).filterMap component? = [c] := by
    simp [Files.Tree.splitAtEach_of_not_mem hslash, hc]
  rcases hfront with rfl | ⟨above, rfl⟩
  · rw [List.nil_append, components, hpiece]
    exact List.getLast?_concat
  · rw [List.append_assoc, List.singleton_append]
    by_cases habove : above = []
    · rw [habove, List.nil_append, components_slash_cons, hpiece]
      rfl
    · rw [components_append_slash habove, hpiece]
      exact List.getLast?_concat

/-- The path ends in a name. -/
structure EndsIn (path : Path) (name : Bytes) : Prop where
  isName : IsName name
  around : ∃ front idle, IsLeading front ∧ IsIdle idle ∧ path = front ++ name ++ idle

/-- A path is cut behind its last slash. -/
theorem exists_leading (path : Path) :
    ∃ front piece, IsLeading front ∧ slash ∉ piece ∧ path = front ++ piece := by
  induction path with
  | nil => exact ⟨[], [], Or.inl rfl, by simp, rfl⟩
  | cons b path ih =>
    obtain ⟨front, piece, hfront, hpiece, rfl⟩ := ih
    rcases hfront with rfl | ⟨above, rfl⟩
    · by_cases hb : b = slash
      · exact ⟨[b], piece, Or.inr ⟨[], by rw [hb]; rfl⟩, hpiece, rfl⟩
      · refine ⟨[], b :: piece, Or.inl rfl, ?_, rfl⟩
        rw [List.mem_cons]
        rintro (heq | hmem)
        · exact hb heq.symm
        · exact hpiece hmem
    · exact ⟨b :: above ++ [slash], piece, isLeading_concat _, hpiece, rfl⟩

/-- **Every path has a last piece**, with nothing but what names nothing behind it; only a path that
is all like that has none.  The induction is on the length: what names nothing is taken off the end
piece by piece. -/
theorem exists_last_piece (path : Path) :
    ∃ front piece idle, IsLeading front ∧ slash ∉ piece ∧ IsIdle idle ∧
      path = front ++ piece ++ idle ∧ (component? piece = none → front = []) := by
  induction hlength : path.length using Nat.strong_induction_on generalizing path with
  | _ n ih =>
    obtain ⟨front, piece, hfront, hpiece, rfl⟩ := exists_leading path
    by_cases hnothing : component? piece = none
    · rcases hfront with rfl | ⟨above, rfl⟩
      · exact ⟨[], piece, [], Or.inl rfl, hpiece, .nil, by simp, fun _ => rfl⟩
      · have hidle : IsIdle (slash :: piece) := by
          rcases component?_eq_none_iff.mp hnothing with rfl | rfl
          · exact .slash .nil
          · exact .here .nil
        have hlt : above.length < n := by
          rw [← hlength]
          simp
        obtain ⟨front, last, idle, hlead, hlast, hidle', rfl, hnone⟩ := ih _ hlt above rfl
        exact ⟨front, last, idle ++ slash :: piece, hlead, hlast, hidle'.append hidle, by simp,
          hnone⟩
    · exact ⟨front, piece, [], hfront, hpiece, .nil, by simp, fun h => absurd h hnothing⟩

/-- **The last name of a path**, by what stands around it. -/
theorem fileName?_eq_some_iff {path : Path} : fileName? path = some name ↔ path.EndsIn name := by
  constructor
  · intro h
    obtain ⟨front, piece, idle, hfront, hslash, hidle, rfl, hnone⟩ := exists_last_piece path
    rw [fileName?_append_idle hidle] at h
    cases hc : component? piece with
    | none =>
      obtain rfl := hnone hc
      rcases component?_eq_none_iff.mp hc with rfl | rfl
      · cases h
      · cases h
    | some c =>
      rw [fileName?, getLast?_components hfront hslash hc] at h
      cases c with
      | normal piece' =>
        obtain ⟨rfl, hname⟩ := isName_of_component? hslash hc
        obtain rfl := Option.some.inj h
        exact ⟨hname, front, idle, hfront, hidle, rfl⟩
      | root => cases h
      | here => cases h
      | up => cases h
  · rintro ⟨hname, front, idle, hfront, hidle, rfl⟩
    rw [fileName?_append_idle hidle, fileName?,
      getLast?_components hfront hname.slash_not_mem (Files.Tree.component?_of_isName hname)]

/-! ## 3. The extension of a name -/

/-- An extension follows the last dot of a name that has something in front of that dot. -/
def HasExtension (name ext : Bytes) : Prop :=
  ∃ stem, stem ≠ [] ∧ name = stem ++ dot :: ext ∧ dot ∉ ext

theorem extensionOfName?_eq_some_iff :
    extensionOfName? name = some ext ↔ HasExtension name ext := by
  constructor
  · intro h
    unfold extensionOfName? at h
    split at h
    · rename_i hdot
      obtain ⟨first, rest, rfl⟩ : ∃ first rest, name = first :: rest := by
        cases name with
        | nil => cases hdot
        | cons first rest => exact ⟨first, rest, rfl⟩
      have hmem : dot ∈ rest := hdot
      obtain ⟨front, back, rfl, hback⟩ := exists_last_of_mem hmem
      have hdrop : (first :: (front ++ dot :: back)).drop 1 = front ++ dot :: back := rfl
      rw [hdrop, afterLast_append front hback] at h
      obtain rfl := Option.some.inj h
      exact ⟨first :: front, List.cons_ne_nil _ _, rfl, hback⟩
    · cases h
  · rintro ⟨stem, hstem, rfl, hext⟩
    obtain ⟨first, rest, rfl⟩ := List.exists_cons_of_ne_nil hstem
    have hdrop : (first :: rest ++ dot :: ext).drop 1 = rest ++ dot :: ext := rfl
    rw [extensionOfName?, hdrop, if_pos (by simp), afterLast_append rest hext]

/-- A name without an extension has no dot, or only a leading one. -/
theorem extensionOfName?_of_not_mem (h : dot ∉ name.drop 1) : extensionOfName? name = none :=
  if_neg h

/-! ## 4. Paths of files with an extension -/

/-- A path that leads into a folder, there to a name with a stem and an extension, and has nothing
but what names nothing behind it. -/
structure IsPathOf (stem extension : Text) (path : Path) : Prop where
  stem_ne_nil : stem ≠ []
  slash_not_mem : '/' ∉ stem ++ extension
  dot_not_mem : '.' ∉ extension
  octets : ∃ folder idle, IsIdle idle ∧
    (path = folder ++ slash :: Utf8.encode (stem ++ '.' :: extension) ++ idle ∨
      path = join folder (Utf8.encode (stem ++ '.' :: extension)) ++ idle)

theorem encode_dotted (stem extension : Text) :
    Utf8.encode (stem ++ '.' :: extension) =
      Utf8.encode stem ++ dot :: Utf8.encode extension := by
  rw [Utf8.encode_append, Utf8.encode_cons]
  rfl

theorem isLeading_gap (folder : Path) : IsLeading (folder ++ gap folder) := by
  by_cases hgap : folder = [] ∨ folder.getLast? = some slash
  · rw [gap, if_pos hgap, List.append_nil]
    rcases hgap with rfl | hlast
    · exact Or.inl rfl
    · obtain ⟨above, rfl⟩ := List.getLast?_eq_some_iff.mp hlast
      exact isLeading_concat above
  · rw [gap, if_neg hgap]
    exact isLeading_concat folder

variable {stem extension : Text} {path : Path}

theorem IsPathOf.slash_not_mem_encode (h : path.IsPathOf stem extension) :
    slash ∉ Utf8.encode (stem ++ '.' :: extension) := by
  intro hmem
  have hmem' : '/' ∈ stem ++ '.' :: extension := (Utf8.mem_encode_iff (by decide)).mp hmem
  exact h.slash_not_mem (by simpa using hmem')

theorem IsPathOf.exists_leading (h : path.IsPathOf stem extension) :
    ∃ front idle, IsLeading front ∧ IsIdle idle ∧
      path = front ++ Utf8.encode (stem ++ '.' :: extension) ++ idle := by
  obtain ⟨folder, idle, hidle, rfl | rfl⟩ := h.octets
  · exact ⟨folder ++ [slash], idle, isLeading_concat folder, hidle, by simp⟩
  · rw [join_of_not_isAbsolute _ (isAbsolute_of_not_mem h.slash_not_mem_encode)]
    exact ⟨folder ++ gap folder, idle, isLeading_gap folder, hidle, rfl⟩

theorem IsPathOf.hasExtension (h : path.IsPathOf stem extension) :
    HasExtension (Utf8.encode (stem ++ '.' :: extension)) (Utf8.encode extension) := by
  refine ⟨Utf8.encode stem, Utf8.encode_ne_nil h.stem_ne_nil, encode_dotted stem extension, ?_⟩
  intro hmem
  exact h.dot_not_mem ((Utf8.mem_encode_iff (by decide)).mp hmem)

theorem IsPathOf.endsIn (h : path.IsPathOf stem extension)
    (hup : Utf8.encode (stem ++ '.' :: extension) ≠ [dot, dot]) :
    path.EndsIn (Utf8.encode (stem ++ '.' :: extension)) := by
  have hne : Utf8.encode stem ≠ [] := Utf8.encode_ne_nil h.stem_ne_nil
  refine ⟨⟨?_, h.slash_not_mem_encode, ?_, hup⟩, h.exists_leading⟩
  · rw [encode_dotted]
    exact List.append_ne_nil_of_left_ne_nil hne _
  · rw [encode_dotted]
    intro heq
    rcases List.append_eq_singleton_iff.mp heq with ⟨hnil, -⟩ | ⟨-, hnil⟩
    · exact hne hnil
    · cases hnil

/-- The folder above is spelt like a stem with an empty extension, and has none. -/
theorem IsPathOf.of_up (h : path.IsPathOf stem extension)
    (hup : Utf8.encode (stem ++ '.' :: extension) = [dot, dot]) :
    extension = [] ∧ extension? path = none := by
  constructor
  · by_contra hne
    have hlength := congrArg List.length (encode_dotted stem extension ▸ hup)
    have hstem := List.length_pos_of_ne_nil (Utf8.encode_ne_nil h.stem_ne_nil)
    have hext := List.length_pos_of_ne_nil (Utf8.encode_ne_nil hne)
    simp only [List.length_append, List.length_cons, List.length_nil] at hlength
    omega
  · obtain ⟨front, idle, hfront, hidle, rfl⟩ := h.exists_leading
    have hc : component? (Utf8.encode (stem ++ '.' :: extension)) = some .up := hup ▸ by decide
    rw [extension?, fileName?_append_idle hidle, fileName?,
      getLast?_components hfront h.slash_not_mem_encode hc]
    rfl

end Path

namespace Http.ContentType

open IsolatedSite.Path

variable {path : Path}

/-! ## 5. Types -/

theorem ofPath_of_hasExtension {name : Bytes} {extension : Text} (hname : path.EndsIn name)
    (h : HasExtension name (Utf8.encode extension)) :
    ofPath path = ofExtension (extension.map Char.toLower) := by
  rw [ofPath, extension?, fileName?_eq_some_iff.mpr hname, Option.bind_some,
    extensionOfName?_eq_some_iff.mpr h, Option.bind_some, Utf8.decode?_encode]

theorem ofPath_of_unreadable (h : ∀ e : Text, extension? path ≠ some (Utf8.encode e)) :
    ofPath path = unknown.toList := by
  have hnone : (extension? path).bind Utf8.decode? = none := by
    rw [Option.bind_eq_none_iff]
    intro ext hext
    cases hdecode : Utf8.decode? ext with
    | none => rfl
    | some e => exact absurd (Utf8.decode?_eq_some_iff.mp hdecode ▸ hext) (h e)
  rw [ofPath, hnone]

/-- **A path with a stem and an extension** has the type of the extension. -/
theorem ofPath_of_isPathOf {stem extension : Text} (h : path.IsPathOf stem extension) :
    ofPath path = ofExtension (extension.map Char.toLower) := by
  by_cases hup : Utf8.encode (stem ++ '.' :: extension) = [dot, dot]
  · obtain ⟨rfl, hnone⟩ := h.of_up hup
    have hunknown : ofExtension [] = unknown.toList := by decide
    rw [ofPath_of_unreadable fun e => by rw [hnone]; exact nofun]
    exact hunknown.symm
  · exact ofPath_of_hasExtension (h.endsIn hup) h.hasExtension

theorem ofPath_append_idle {idle : Bytes} (h : IsIdle idle) (path : Path) :
    ofPath (path ++ idle) = ofPath path := by
  rw [ofPath, extension?, fileName?_append_idle h]
  rfl

/-- A name has no extension that is text: it has no dot but a leading one, or what follows the last
one is not text. -/
def HasNoTextExtension (name : Bytes) : Prop :=
  dot ∉ name.drop 1 ∨ ∃ ext, HasExtension name ext ∧ ∀ e : Text, ext ≠ Utf8.encode e

theorem ofPath_of_hasNoTextExtension (h : ∀ name, path.EndsIn name → HasNoTextExtension name) :
    ofPath path = unknown.toList := by
  refine ofPath_of_unreadable fun e hext => ?_
  obtain ⟨name, hname, hext⟩ := Option.bind_eq_some_iff.mp hext
  rcases h name (fileName?_eq_some_iff.mp hname) with hdot | ⟨ext, hother, htext⟩
  · rw [extensionOfName?_of_not_mem hdot] at hext
    cases hext
  · rw [extensionOfName?_eq_some_iff.mpr hother] at hext
    exact htext e (Option.some.inj hext)

/-- **The type of a file follows its last extension.**  In any folder, behind any stem and with
anything that names nothing at its end, a path has the type of its extension in small letters; so
two paths have the same type if their extensions differ in the case of letters at most.  This is the
type of every path whose last name has an extension that is text, and all others are of unknown
type. -/
theorem type_by_last_extension :
    (∀ (stem extension : Text) (path : Path), path.IsPathOf stem extension →
      ofPath path = ofExtension (extension.map Char.toLower)) ∧
    (∀ (stem stem' extension extension' : Text) (path path' : Path),
      path.IsPathOf stem extension → path'.IsPathOf stem' extension' →
      extension'.map Char.toLower = extension.map Char.toLower → ofPath path' = ofPath path) ∧
    (∀ (path : Path) (idle : Bytes), IsIdle idle → ofPath (path ++ idle) = ofPath path) ∧
    (∀ (path : Path) (name : Bytes) (extension : Text), path.EndsIn name →
      HasExtension name (Utf8.encode extension) →
      ofPath path = ofExtension (extension.map Char.toLower)) ∧
    ∀ path : Path, (∀ name, path.EndsIn name → HasNoTextExtension name) →
      ofPath path = unknown.toList := by
  refine ⟨fun _ _ _ h => ofPath_of_isPathOf h, ?_, fun path _ h => ofPath_append_idle h path,
    fun _ _ _ hname h => ofPath_of_hasExtension hname h, fun _ h => ofPath_of_hasNoTextExtension h⟩
  intro stem stem' extension extension' path path' h h' hcase
  rw [ofPath_of_isPathOf h, ofPath_of_isPathOf h', hcase]

/-- A path with dots in its folders, in front of its stem and at its end. -/
def dottedPath : Path := ascii "/srv/v1.2/../.a.b.HtM/./"

theorem isPathOf_dottedPath : dottedPath.IsPathOf ".a.b".toList "HtM".toList :=
  ⟨by decide, by decide, by decide, ascii "/srv/v1.2/..", ascii "/./", .here (.slash .nil),
    Or.inl (by decide +kernel)⟩

/-- The last extension decides, in any case; a leading dot does not begin one, and one that is not
text counts for nothing. -/
theorem dottedPath_typed :
    ofPath dottedPath = "text/html; charset=utf-8".toList ∧
      ofPath (ascii "x.htm") = ofPath dottedPath ∧
      ofPath (dottedPath ++ ascii "/.") = ofPath dottedPath ∧
      ofPath (ascii "a.js/.htm/") = unknown.toList ∧
      ofPath (ascii "a.js/b." ++ [0xFF]) = unknown.toList := by
  obtain ⟨htype, hsame, hidle, -, hunknown⟩ := type_by_last_extension
  have hplain : IsPathOf "x".toList "htm".toList (ascii "x.htm") :=
    ⟨by decide, by decide, by decide, [], [], .nil, Or.inr (by decide +kernel)⟩
  refine ⟨htype _ _ _ isPathOf_dottedPath, hsame _ _ _ _ _ _ isPathOf_dottedPath hplain (by decide),
    hidle _ _ (.here .nil), hunknown _ ?_, hunknown _ ?_⟩
  · intro name hname
    have hlast : fileName? (ascii "a.js/.htm/") = some (ascii ".htm") := by decide +kernel
    rw [fileName?_eq_some_iff.mpr hname] at hlast
    obtain rfl := Option.some.inj hlast
    exact Or.inl (by decide +kernel)
  · intro name hname
    have hlast : fileName? (ascii "a.js/b." ++ [0xFF]) = some (ascii "b." ++ [0xFF]) := by
      decide +kernel
    rw [fileName?_eq_some_iff.mpr hname] at hlast
    obtain rfl := Option.some.inj hlast
    refine Or.inr ⟨[0xFF], ⟨ascii "b", by decide, by decide, by decide⟩, fun e heq => ?_⟩
    have hdecode : Utf8.decode? [0xFF] = none := by decide
    rw [heq, Utf8.decode?_encode] at hdecode
    cases hdecode

end Http.ContentType

end IsolatedSite
