/-
# URL paths and the files they name

A URL path is translated piece by piece: what stands behind a slash is translated from where the
front leads to, whatever the two parts are (`translate?_append_slash`).  An escaped name leads to
that name (`translate?_encode`), so names that are escaped and put together with slashes lead down
along them, one after the other (`translate?_urlOf`).
-/
import IsolatedSite.Proofs.AsciiOctets
import IsolatedSite.Proofs.Cutting
import IsolatedSite.Proofs.Locations
import IsolatedSite.Site.Serve
import Mathlib.Data.List.Induction

namespace IsolatedSite

namespace Path

/-! ## 1. Putting paths together -/

theorem join_joinAll (p q : Path) (qs : List Path) :
    join p (joinAll q qs) = joinAll (join p q) qs := by
  cases qs with
  | nil => rfl
  | cons r qs => rw [joinAll, joinAll, join_assoc]

/-- **Going on along names** may be done in two goes. -/
theorem joinAll_append (p : Path) (qs rs : List Path) :
    joinAll p (qs ++ rs) = joinAll (joinAll p qs) rs := by
  induction qs generalizing p with
  | nil => rfl
  | cons q qs ih => rw [List.cons_append, joinAll, ih, join_joinAll, joinAll]

end Path

/-! ## 2. Pieces -/

namespace Site

theorem segments_append_slash (p q : Text) :
    segments (p ++ '/' :: q) = segments p ++ segments q := by
  rw [segments, Percent.decodeText_append_slash, splitAtEach_append_sep, List.filter_append]
  rfl

theorem translate?_nil (root : Path) : translate? root [] = some root := by rfl

/-- **A URL path is translated piece by piece.** -/
theorem translate?_append_slash (root : Path) (p q : Text) :
    translate? root (p ++ '/' :: q) = (translate? root p).bind fun r => translate? r q := by
  simp only [translate?, segments_append_slash, List.any_append, List.map_append,
    Path.joinAll_append]
  cases (segments p).any holdsNul with
  | true => rfl
  | false => rfl

/-- **A slash at the end of a path** leads nowhere else. -/
theorem translate?_concat_slash (root : Path) (p : Text) :
    translate? root (p ++ ['/']) = translate? root p := by
  rw [translate?_append_slash]
  cases translate? root p with
  | none => rfl
  | some r => rw [Option.bind_some, translate?_nil]

/-- What is put behind a path with a slash at its end is translated from where that leads to. -/
theorem translate?_append_of_endsInSlash {root folder : Path} {p : Text}
    (hslash : OpenSite.endsInSlash p = true) (hp : translate? root p = some folder) (q : Text) :
    translate? root (p ++ q) = translate? folder q := by
  obtain ⟨front, rfl⟩ : ∃ front, p = front ++ ['/'] :=
    List.getLast?_eq_some_iff.mp (by simpa [OpenSite.endsInSlash] using hslash)
  rw [translate?_concat_slash] at hp
  rw [List.append_assoc, List.singleton_append, translate?_append_slash, hp, Option.bind_some]

/-! ## 3. Names -/

/-- A name that a file can have, as text: its octets are a name, and there is no NUL in them. -/
structure IsFileName (name : Text) : Prop where
  isName : Files.IsName (Utf8.encode name)
  nul_not_mem : (0 : UInt8) ∉ Utf8.encode name

theorem IsFileName.ne_nil {name : Text} (h : IsFileName name) : name ≠ [] := fun heq =>
  h.isName.ne_nil (by rw [heq]; rfl)

theorem IsFileName.slash_not_mem {name : Text} (h : IsFileName name) : '/' ∉ name := fun hmem =>
  h.isName.slash_not_mem ((Utf8.mem_encode_iff (by decide)).mpr hmem)

theorem IsFileName.holdsNul_eq {name : Text} (h : IsFileName name) : holdsNul name = false := by
  simp only [holdsNul, List.contains_eq_mem, decide_eq_false_iff_not]
  exact fun hmem => h.nul_not_mem ((Utf8.mem_encode_iff (by decide)).mpr hmem)

theorem IsFileName.isDropped_eq {name : Text} (h : IsFileName name) : isDropped name = false := by
  have hhere : name ≠ ['.'] := fun heq => h.isName.ne_here (by rw [heq]; decide)
  have hup : name ≠ ['.', '.'] := fun heq => h.isName.ne_up (by rw [heq]; decide)
  simp [isDropped, h.ne_nil, hhere, hup]

/-- An escaped name is one piece, the name. -/
theorem segments_encode {name : Text} (h : IsFileName name) :
    segments (Percent.encode name) = [name] := by
  rw [segments, Percent.decodeText_encode, Files.Tree.splitAtEach_of_not_mem h.slash_not_mem]
  simp [h.isDropped_eq]

/-- **An escaped name leads to the name.** -/
theorem translate?_encode {name : Text} (h : IsFileName name) (root : Path) :
    translate? root (Percent.encode name) = some (Path.join root (Utf8.encode name)) := by
  simp only [translate?, segments_encode h, List.any_cons, List.any_nil, h.holdsNul_eq]
  rfl

/-! ## 4. The URL path of a chain of names -/

/-- Names as a URL path: each of them escaped, behind a slash. -/
def urlOf (names : List Text) : Text := names.flatMap fun name => '/' :: Percent.encode name

theorem urlOf_concat (names : List Text) (name : Text) :
    urlOf (names ++ [name]) = urlOf names ++ '/' :: Percent.encode name := by
  simp [urlOf]

/-- The slashes stand between the names and in front of the first one. -/
theorem cons_joinWith_encode {names : List Text} (h : names ≠ []) :
    '/' :: joinWith ['/'] (names.map Percent.encode) = urlOf names := by
  induction names with
  | nil => exact absurd rfl h
  | cons name names ih =>
    cases names with
    | nil => simp [joinWith, urlOf]
    | cons next names =>
      have hnext : '/' :: joinWith ['/'] ((next :: names).map Percent.encode) =
          urlOf (next :: names) := ih (by simp)
      have hsplit : joinWith ['/'] ((name :: next :: names).map Percent.encode) =
          Percent.encode name ++ '/' :: joinWith ['/'] ((next :: names).map Percent.encode) := by
        simp [joinWith]
      rw [hsplit, hnext]
      rfl

/-- **Escaped names lead down along the names.**  The induction is on the names from the end. -/
theorem translate?_urlOf {names : List Text} (h : ∀ name ∈ names, IsFileName name) (root : Path) :
    translate? root (urlOf names) = some (root.joinAll (names.map Utf8.encode)) := by
  induction names using List.reverseRecOn with
  | nil => exact translate?_nil root
  | append_singleton names name ih =>
    have hnames : ∀ n ∈ names, IsFileName n := fun n hn => h n (by simp [hn])
    rw [urlOf_concat, translate?_append_slash, ih hnames, Option.bind_some,
      translate?_encode (h name (by simp)), List.map_append, Path.joinAll_append]
    rfl

end Site

/-- A URL path that ends in an escaped name does not end in a slash. -/
theorem OpenSite.endsInSlash_append_encode (p : Text) {name : Text} (h : name ≠ []) :
    endsInSlash (p ++ Percent.encode name) = false := by
  have hlast : (p ++ Percent.encode name).getLast? = (Percent.encode name).getLast? := by
    simp [List.getLast?_append, List.getLast?_eq_some_getLast (Percent.encode_ne_nil h)]
  rw [endsInSlash, hlast]
  simp only [beq_eq_false_iff_ne]
  exact fun heq => Percent.slash_not_mem_encode name (List.mem_of_getLast? heq)

end IsolatedSite
