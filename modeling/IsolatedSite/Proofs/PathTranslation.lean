/-
# What a URL path is translated to

`translate?_pieces` says it once for every root and every URL path.  The path is decoded once and
cut at its slashes; with a NUL anywhere there is no answer; otherwise the answer is the root and,
behind it, the pieces that are not empty, `.` or `..`, all of them and in their order.  Each is one
component of the result (`Path.Extends`), so the components of the root begin those of the result,
and none of the others leads upwards, whatever was escaped and however often.

`translate?_behind_slash` says that a URL path may be cut at any slash: neither an unfinished escape
nor an unfinished character reaches over it, and what follows is translated from where the front has
led.
-/
import IsolatedSite.Proofs.LineBreaks
import IsolatedSite.Proofs.RealPaths

namespace IsolatedSite

/-! ## 1. Pieces -/

theorem joinWith_cons_cons {α : Type} (sep p q : List α) (ps : List (List α)) :
    joinWith sep (p :: q :: ps) = p ++ sep ++ joinWith sep (q :: ps) := rfl

/-- Nothing but the separators is lost in cutting. -/
theorem joinWith_splitAtEach {α : Type} [DecidableEq α] (sep : α) (xs : List α) :
    joinWith [sep] (splitAtEach sep xs) = xs := by
  induction xs with
  | nil => rfl
  | cons x xs ih =>
    cases hsplit : splitAtEach sep xs with
    | nil => exact absurd hsplit (splitAtEach_ne_nil sep xs)
    | cons p ps =>
      rw [hsplit] at ih
      by_cases hx : x = sep
      · rw [splitAtEach, if_pos hx, hsplit, joinWith_cons_cons, ih, hx]
        rfl
      · rw [splitAtEach, if_neg hx, hsplit, ← ih]
        cases ps <;> rfl

/-- What stands in no piece stands nowhere. -/
theorem exists_mem_splitAtEach_iff {α : Type} [DecidableEq α] {sep x : α} (hx : sep ≠ x)
    {xs : List α} : (∃ piece ∈ splitAtEach sep xs, x ∈ piece) ↔ x ∈ xs := by
  have h : (∀ piece ∈ splitAtEach sep xs, ∀ y ∈ piece, y ≠ x) ↔ ∀ y ∈ xs, y ≠ x :=
    forall_mem_splitAtEach_iff sep hx
  constructor
  · rintro ⟨piece, hpiece, hmem⟩
    by_contra hout
    exact h.mpr (fun y hy heq => hout (heq ▸ hy)) piece hpiece x hmem rfl
  · intro hmem
    by_contra hout
    exact h.mp (fun piece hpiece y hy heq => hout ⟨piece, hpiece, heq ▸ hy⟩) x hmem rfl

/-! ## 2. Going on along names -/

namespace Path

open Files (IsName)

/-- What stands behind a slash adds its own components. -/
theorem components_append_slash {p : Path} (hp : p ≠ []) (q : Path) :
    components (p ++ slash :: q) = components p ++ (splitAtEach slash q).filterMap component? := by
  have hhead :
      (splitAtEach slash p ++ splitAtEach slash q).head? = (splitAtEach slash p).head? := by
    cases hsplit : splitAtEach slash p with
    | nil => exact absurd hsplit (splitAtEach_ne_nil slash p)
    | cons piece pieces => rfl
  rw [components, components, splitAtEach_append_sep, isAbsolute_append _ hp, hhead,
    List.filterMap_append, List.append_assoc]

theorem components_slash_cons (q : Path) :
    components (slash :: q) = .root :: (splitAtEach slash q).filterMap component? := by
  have hroot : component? [] = none := by decide
  rw [components, splitAtEach, if_pos rfl, List.filterMap_cons_none hroot]
  rfl

theorem filterMap_splitAtEach_of_isName {name : Bytes} (h : IsName name) :
    (splitAtEach slash name).filterMap component? = [.normal name] := by
  rw [Files.Tree.splitAtEach_of_not_mem h.slash_not_mem]
  simp [Files.Tree.component?_of_isName h]

theorem components_of_isName {name : Bytes} (h : IsName name) :
    components name = [.normal name] := by
  rw [components, filterMap_splitAtEach_of_isName h,
    Files.Tree.splitAtEach_of_not_mem h.slash_not_mem, h.isAbsolute_eq]
  simp [h.ne_here]

/-- **Going on along a name** adds one component.  The cases are those of what has to stand between
the two. -/
theorem components_join {name : Bytes} (h : IsName name) (p : Path) :
    components (join p name) = components p ++ [.normal name] := by
  have hempty : (splitAtEach slash []).filterMap component? = [] := by decide
  rw [join_of_not_isAbsolute _ h.isAbsolute_eq]
  by_cases hp : p = []
  · subst hp
    exact components_of_isName h
  by_cases hlast : p.getLast? = some slash
  · obtain ⟨front, rfl⟩ := List.getLast?_eq_some_iff.mp hlast
    have hgap : gap (front ++ [slash]) = [] := if_pos (Or.inr hlast)
    rw [hgap, List.append_nil, List.append_assoc, List.singleton_append]
    by_cases hfront : front = []
    · subst hfront
      rw [List.nil_append, List.nil_append, components_slash_cons, components_slash_cons,
        filterMap_splitAtEach_of_isName h, hempty]
      rfl
    · rw [components_append_slash hfront, components_append_slash hfront,
        filterMap_splitAtEach_of_isName h, hempty, List.append_nil]
  · have hgap : gap p = [slash] := if_neg (not_or.mpr ⟨hp, hlast⟩)
    rw [hgap, List.append_assoc, List.singleton_append, components_append_slash hp,
      filterMap_splitAtEach_of_isName h]

/-- **Going on along names** adds one component for each of them. -/
theorem components_joinAll {names : List Bytes} (h : ∀ name ∈ names, IsName name) (p : Path) :
    components (joinAll p names) = components p ++ names.map .normal := by
  induction names generalizing p with
  | nil => simp [joinAll]
  | cons name names ih =>
    have hnames : ∀ n ∈ names, IsName n := fun n hn => h n (List.mem_cons_of_mem _ hn)
    rw [joinAll, join_joinAll, ih hnames, components_join (h name List.mem_cons_self),
      List.append_assoc]
    rfl

theorem isAbsolute_joinWith {name : Bytes} {names : List Bytes} (h : IsName name) :
    isAbsolute (joinWith [slash] (name :: names)) = false := by
  cases names with
  | nil => exact h.isAbsolute_eq
  | cons next names =>
    rw [joinWith_cons_cons, List.append_assoc, isAbsolute_append _ h.ne_nil]
    exact h.isAbsolute_eq

/-- Names are put together with slashes between them. -/
theorem joinAll_name {name : Bytes} {names : List Bytes} (h : ∀ n ∈ name :: names, IsName n) :
    joinAll name names = joinWith [slash] (name :: names) := by
  induction names generalizing name with
  | nil => rfl
  | cons next names ih =>
    have hname : IsName name := h name List.mem_cons_self
    have hnext : IsName next := h next (List.mem_cons_of_mem _ List.mem_cons_self)
    have hgap : gap name = [slash] := if_neg (not_or.mpr ⟨hname.ne_nil, hname.getLast?_ne⟩)
    rw [joinAll, ih fun n hn => h n (List.mem_cons_of_mem _ hn),
      join_of_not_isAbsolute _ (isAbsolute_joinWith hnext), hgap, joinWith_cons_cons]

/-- **The octets of a path that goes on along names.** -/
theorem joinAll_eq {names : List Bytes} (h : ∀ name ∈ names, IsName name) (p : Path) :
    joinAll p names = if names = [] then p else p ++ gap p ++ joinWith [slash] names := by
  cases names with
  | nil => rfl
  | cons name names =>
    have hname : IsName name := h name List.mem_cons_self
    rw [if_neg (List.cons_ne_nil _ _), joinAll, joinAll_name h,
      join_of_not_isAbsolute _ (isAbsolute_joinWith hname)]

/-- `path` is `root` and, behind it, `names`: nothing else is added, no name is anything but one
component, and the file system takes each of them. -/
structure Extends (root : Path) (names : List Bytes) (path : Path) : Prop where
  octets : path = if names = [] then root else root ++ gap root ++ joinWith [slash] names
  isName : ∀ name ∈ names, IsName name
  nul_not_mem : ∀ name ∈ names, (0 : UInt8) ∉ name
  component : ∀ name ∈ names, components name = [.normal name]
  components : components path = components root ++ names.map .normal

/-- A path that goes on along names starts with the path that it goes on from. -/
theorem Extends.startsWith {root path : Path} {names : List Bytes} (h : root.Extends names path) :
    path.startsWith root = true := by
  rw [Path.startsWith, List.isPrefixOf_iff_prefix, h.components]
  exact List.prefix_append _ _

end Path

/-! ## 3. The pieces of a URL path -/

namespace Site

/-- A piece of a URL path that names a file or folder. -/
def IsNaming (piece : Text) : Prop := piece ≠ [] ∧ piece ≠ ['.'] ∧ piece ≠ ['.', '.']

instance : DecidablePred IsNaming := fun _ => inferInstanceAs (Decidable (_ ∧ _ ∧ _))

theorem isDropped_eq (piece : Text) : (! isDropped piece) = decide (IsNaming piece) := by
  rw [Bool.eq_iff_iff, decide_eq_true_iff]
  simp [isDropped, IsNaming, and_assoc]

/-- What stands between the slashes of the decoded path. -/
def piecesOf (urlPath : Text) : List Text := splitAtEach '/' (Percent.decodeText urlPath)

/-- The pieces that name something, as octets. -/
def namesOf (urlPath : Text) : List Bytes :=
  ((piecesOf urlPath).filter fun piece => decide (IsNaming piece)).map Utf8.encode

theorem segments_eq (urlPath : Text) :
    segments urlPath = (piecesOf urlPath).filter fun piece => decide (IsNaming piece) := by
  simp only [segments, isDropped_eq, piecesOf]

/-- A piece that names something and holds neither a slash nor a NUL is a name. -/
theorem isFileName_of_isNaming {piece : Text} (h : IsNaming piece) (hslash : '/' ∉ piece)
    (hnul : Char.ofNat 0 ∉ piece) : IsFileName piece := by
  obtain ⟨hne, hhere, hup⟩ := h
  refine ⟨⟨Utf8.encode_ne_nil hne, ?_, ?_, ?_⟩, ?_⟩
  · exact fun hmem => hslash ((Utf8.mem_encode_iff (by decide)).mp hmem)
  · exact fun heq => hhere (Utf8.encode_injective (t := ['.']) heq)
  · exact fun heq => hup (Utf8.encode_injective (t := ['.', '.']) heq)
  · exact fun hmem => hnul ((Utf8.mem_encode_iff (by decide)).mp hmem)

/-- A NUL is never in a piece that is dropped. -/
theorem any_holdsNul_iff (urlPath : Text) :
    (segments urlPath).any holdsNul = true ↔ Char.ofNat 0 ∈ Percent.decodeText urlPath := by
  have hslash : '/' ≠ Char.ofNat 0 := by decide
  rw [← exists_mem_splitAtEach_iff hslash, List.any_eq_true, segments_eq]
  constructor
  · rintro ⟨piece, hpiece, hnul⟩
    exact ⟨piece, (List.mem_filter.mp hpiece).1, by simpa [holdsNul] using hnul⟩
  · rintro ⟨piece, hpiece, hnul⟩
    have hnaming : IsNaming piece := by
      refine ⟨?_, ?_, ?_⟩
      all_goals
        rintro rfl
        exact absurd hnul (by decide)
    exact ⟨piece, List.mem_filter.mpr ⟨hpiece, by simpa using hnaming⟩, by simpa [holdsNul]⟩

theorem translate?_eq_none_iff (root : Path) (urlPath : Text) :
    translate? root urlPath = none ↔ Char.ofNat 0 ∈ Percent.decodeText urlPath := by
  rw [← any_holdsNul_iff]
  simp [translate?]

/-- The pieces that are kept, without a NUL, are names. -/
theorem isFileName_of_mem_segments {urlPath piece : Text}
    (hnul : Char.ofNat 0 ∉ Percent.decodeText urlPath)
    (h : piece ∈ (piecesOf urlPath).filter fun s => decide (IsNaming s)) : IsFileName piece := by
  obtain ⟨hpiece, hnaming⟩ := List.mem_filter.mp h
  refine isFileName_of_isNaming (by simpa using hnaming)
    (Files.not_mem_of_mem_splitAtEach hpiece) fun hmem => hnul ?_
  have hslash : '/' ≠ Char.ofNat 0 := by decide
  exact (exists_mem_splitAtEach_iff hslash).mp ⟨piece, hpiece, hmem⟩

/-! ## 4. The whole -/

/-- A translated path is the root and the pieces that were kept. -/
theorem extends_of_translate? {root path : Path} {urlPath : Text}
    (h : translate? root urlPath = some path) :
    root.Extends (namesOf urlPath) path := by
  have hnul : Char.ofNat 0 ∉ Percent.decodeText urlPath := by
    rw [← translate?_eq_none_iff root, h]
    simp
  have hname : ∀ name ∈ namesOf urlPath, Files.IsName name ∧ (0 : UInt8) ∉ name := by
    intro name hname
    obtain ⟨piece, hpiece, rfl⟩ := List.mem_map.mp hname
    have hfile := isFileName_of_mem_segments hnul hpiece
    exact ⟨hfile.isName, hfile.nul_not_mem⟩
  have hnames : ∀ name ∈ namesOf urlPath, Files.IsName name := fun name hn => (hname name hn).1
  obtain rfl : root.joinAll (namesOf urlPath) = path := by
    simp only [translate?, segments_eq] at h
    split at h
    · cases h
    · exact Option.some.inj h
  constructor
  · exact Path.joinAll_eq hnames root
  · exact hnames
  · exact fun name hn => (hname name hn).2
  · exact fun name hn => Path.components_of_isName (hnames name hn)
  · exact Path.components_joinAll hnames root

/-- **What a URL path is translated to.**  There is no answer exactly if the decoded path holds a
NUL.  Otherwise the answer is the root and, behind it, the pieces between the slashes of the decoded
path that are not empty, `.` or `..`: all of them, in order, and one component each. -/
theorem translate?_pieces (root : Path) (urlPath : Text) :
    (joinWith ['/'] (piecesOf urlPath) = Percent.decodeText urlPath ∧
      ∀ piece ∈ piecesOf urlPath, '/' ∉ piece) ∧
    (translate? root urlPath = none ↔ Char.ofNat 0 ∈ Percent.decodeText urlPath) ∧
    ∀ path, translate? root urlPath = some path →
      root.Extends (namesOf urlPath) path ∧ path.startsWith root = true := by
  refine ⟨⟨joinWith_splitAtEach _ _, fun piece => Files.not_mem_of_mem_splitAtEach⟩,
    translate?_eq_none_iff root urlPath, fun path hpath => ?_⟩
  have hextends := extends_of_translate? hpath
  exact ⟨hextends, hextends.startsWith⟩

/-- Dots and slashes that are escaped once count; those that are escaped twice are part of a name,
and so are backslashes. -/
theorem translate?_pieces_ofEscapedDots :
    translate? (ascii "/srv/") "/%2e%2e/a%2Fb/..%5c/.%2E/%252e%252E/c".toList =
        some (ascii "/srv/a/b/..\\/%2e%2E/c") ∧
      Path.Extends (ascii "/srv/")
        [ascii "a", ascii "b", ascii "..\\", ascii "%2e%2E", ascii "c"]
        (ascii "/srv/a/b/..\\/%2e%2E/c") := by
  have hpath : translate? (ascii "/srv/") "/%2e%2e/a%2Fb/..%5c/.%2E/%252e%252E/c".toList =
      some (ascii "/srv/a/b/..\\/%2e%2E/c") := by decide +kernel
  have hnames : namesOf "/%2e%2e/a%2Fb/..%5c/.%2E/%252e%252E/c".toList =
      [ascii "a", ascii "b", ascii "..\\", ascii "%2e%2E", ascii "c"] := by decide +kernel
  obtain ⟨-, -, hextends⟩ :=
    translate?_pieces (ascii "/srv/") "/%2e%2e/a%2Fb/..%5c/.%2E/%252e%252E/c".toList
  exact ⟨hpath, hnames ▸ (hextends _ hpath).1⟩

/-- **A URL path may be cut at a slash.**  Nothing unfinished in front of it, neither an escape nor
a character, is completed by what follows, and what follows is translated from where the front leads
to; if the front leads nowhere, so does the whole. -/
theorem translate?_behind_slash (root : Path) (p q : Text) :
    (∀ front rest : Bytes,
      Percent.decode (front ++ Path.slash :: rest) =
          Percent.decode front ++ Path.slash :: Percent.decode rest ∧
        Utf8.decodeLossy (front ++ Path.slash :: rest) =
          Utf8.decodeLossy front ++ '/' :: Utf8.decodeLossy rest) ∧
    Percent.decodeText (p ++ '/' :: q) = Percent.decodeText p ++ '/' :: Percent.decodeText q ∧
    translate? root (p ++ '/' :: q) =
      match translate? root p with
      | none => none
      | some r => translate? r q := by
  refine ⟨fun front rest => ⟨?_, ?_⟩, Percent.decodeText_append_slash p q, ?_⟩
  · exact Percent.run_append_slash .plain front rest
  · exact Utf8.decodeLossy_append_ascii (by decide) front rest
  · rw [translate?_append_slash]
    cases translate? root p <;> rfl

end Site

end IsolatedSite
