/-
# Which answers a site gives

An inquiry is answered in one of four ways, or fails.  `Gives` lists the ways, each with everything
that was checked before it: what the path was translated to, what was found there, that it lies
under the root with links followed, and what was read.  `gives_of_resolve` shows that there are no
others, so that whatever is to be known about answers is read off the four cases.
-/
import IsolatedSite.Site.Serve
import Mathlib.Data.List.Basic

namespace IsolatedSite

open IsolatedSite.Http

/-! ## 1. Chains of steps -/

namespace Site.Handling

variable {α β : Type}

theorem result_bind (h : Handling α) (next : α → Handling β) :
    (h >>= next).result = (h.result >>= fun a => (next a).result) := by
  obtain ⟨result, notices⟩ := h
  cases result <;> rfl

@[simp] theorem result_done (a : α) : (done a).result = .ok a := rfl

@[simp] theorem result_fail (e : Failure) : (fail e : Handling α).result = .error e := rfl

@[simp] theorem result_failWith (n : Notice) (e : Failure) :
    (failWith n e : Handling α).result = .error e := rfl

@[simp] theorem result_ofBuilt (b : Built) : (ofBuilt b).result = .ok b.response := rfl

/-- A chain gives something exactly if its first step does and the rest does. -/
theorem result_bind_eq_ok {h : Handling α} {next : α → Handling β} {b : β} :
    (h >>= next).result = .ok b ↔ ∃ a, h.result = .ok a ∧ (next a).result = .ok b := by
  rw [result_bind]
  cases h.result with
  | error e =>
    constructor
    · intro hb
      cases hb
    · rintro ⟨_, hok, _⟩
      cases hok
  | ok a =>
    constructor
    · exact fun hb => ⟨a, rfl, hb⟩
    · rintro ⟨_, hok, hb⟩
      cases hok
      exact hb

theorem result_bind_of_ok {h : Handling α} {a : α} (ha : h.result = .ok a)
    (next : α → Handling β) : (h >>= next).result = (next a).result := by
  rw [result_bind, ha]
  rfl

theorem result_bind_of_error {h : Handling α} {e : Failure} (he : h.result = .error e)
    (next : α → Handling β) : (h >>= next).result = .error e := by
  rw [result_bind, he]
  rfl

theorem result_orFail_eq_ok {e : Failure} {o : Option α} {a : α} :
    (orFail e o).result = .ok a ↔ o = some a := by
  cases o <;> simp [orFail]

theorem result_ofFiles_eq_ok {path : Path} {found : Except Files.OsError α} {a : α} :
    (ofFiles path found).result = .ok a ↔ found = .ok a := by
  unfold ofFiles
  split <;> simp_all

end Site.Handling

/-! ## 2. What an answer rests on -/

namespace OpenSite

variable (site : OpenSite) (t : Files.Tree) (who : Files.Caller) (q : Site.Inquiry)

/-- What a path names lies under the root, links followed. -/
def Contained (p : Path) : Prop :=
  ∃ real, t.canonical who [] p = .ok real ∧ Path.startsWith real site.root = true

/-- The inquiry asks for a path at which a node is found, and which lies under the root. -/
structure AsksFor (target : Path) (node : Files.Node) : Prop where
  translated : Site.translate? site.root q.path = some target
  found : t.stat who [] target = .ok node
  contained : site.Contained t who target

/-- The path of the file that an inquiry is answered with: what it asks for, or the index file of
the folder that it asks for. -/
inductive Selects : Path → Prop
  | itself {target : Path} {node : Files.Node} : site.AsksFor t who q target node →
      (∀ mode, node ≠ .folder mode) → endsInSlash q.path = false → Selects target
  | index {folder index : Path} {mode : Nat} : site.AsksFor t who q folder (.folder mode) →
      endsInSlash q.path = true → site.indexPath? t who folder = some index → Selects index

/-- The file that an inquiry is answered with, as it was found. -/
structure SelectsFile (p : Path) (node : Files.Node) (date : Text) : Prop where
  selects : site.Selects t who q p
  contained : site.Contained t who p
  found : t.stat who [] p = .ok node
  dated : Calendar.httpDate? (modifiedOf node) = some date

/-- The answers that are no failures. -/
inductive Gives : Response → Prop
  | redirected {folder : Path} {mode : Nat} : site.AsksFor t who q folder (.folder mode) →
      endsInSlash q.path = false → Gives (redirectAnswer (slashedLocation q)).response
  | listed {folder : Path} {mode : Nat} {rows : List Site.Row} :
      site.AsksFor t who q folder (.folder mode) → endsInSlash q.path = true →
      site.indexPath? t who folder = none → site.settings.serve.directoryListing = true →
      Site.rowsOf t who folder = .ok rows →
      Gives (pageAnswer (Site.listingPage (Percent.decodeText q.path) rows) q.isHead).response
  | unchanged {p : Path} {node : Files.Node} {date : Text} :
      site.SelectsFile t who q p node date →
      Site.isNotModified? q.ifModifiedSince q.hasIfNoneMatch (modifiedOf node) = some true →
      Gives (notModifiedAnswer date).response
  | sent {p : Path} {node : Files.Node} {date : Text} {content : Bytes} :
      site.SelectsFile t who q p node date →
      Site.isNotModified? q.ifModifiedSince q.hasIfNoneMatch (modifiedOf node) = some false →
      t.read who [] p = .ok content →
      Gives (fileAnswer content (ContentType.ofPath p) date q.isHead).response

variable {site t who q}

/-! ## 3. There are no other answers -/

theorem ensureContained_eq_ok {target : Path} {requested : Text} :
    (site.ensureContained t who target requested).result = .ok () ↔
      site.Contained t who target := by
  simp only [ensureContained, Site.Handling.result_bind_eq_ok, Site.Handling.result_ofFiles_eq_ok,
    Contained]
  refine exists_congr fun real => and_congr_right fun _ => ?_
  by_cases h : Path.startsWith real site.root = true <;> simp [h]

/-- What an inquiry is answered with goes by what it asks for. -/
theorem AsksFor.result_resolve {target : Path} {node : Files.Node}
    (h : site.AsksFor t who q target node) :
    (site.resolve t who q).result =
      (match node with
      | .folder _ => site.serveFolder t who q target
      | _ => if endsInSlash q.path then .fail .notFound
        else site.serveFile t who q target).result := by
  refine (Site.Handling.result_bind_of_ok
    (Site.Handling.result_orFail_eq_ok.mpr h.translated) _).trans ?_
  refine (Site.Handling.result_bind_of_ok
    (Site.Handling.result_ofFiles_eq_ok.mpr h.found) _).trans ?_
  exact Site.Handling.result_bind_of_ok (ensureContained_eq_ok.mpr h.contained) _

theorem gives_of_serveFile {p : Path} {r : Response} (hp : site.Selects t who q p)
    (h : (site.serveFile t who q p).result = .ok r) : site.Gives t who q r := by
  unfold serveFile at h
  obtain ⟨⟨⟩, hcontained, h⟩ := Site.Handling.result_bind_eq_ok.mp h
  obtain ⟨node, hfound, h⟩ := Site.Handling.result_bind_eq_ok.mp h
  obtain ⟨unchanged, hunchanged, h⟩ := Site.Handling.result_bind_eq_ok.mp h
  have hunchanged := Site.Handling.result_orFail_eq_ok.mp hunchanged
  have hsel : ∀ {date}, Calendar.httpDate? (modifiedOf node) = some date →
      site.SelectsFile t who q p node date := fun hdate =>
    ⟨hp, ensureContained_eq_ok.mp hcontained, Site.Handling.result_ofFiles_eq_ok.mp hfound, hdate⟩
  cases unchanged with
  | true =>
    obtain ⟨date, hdate, h⟩ := Site.Handling.result_bind_eq_ok.mp h
    cases h
    exact .unchanged (hsel (Site.Handling.result_orFail_eq_ok.mp hdate)) hunchanged
  | false =>
    obtain ⟨content, hcontent, h⟩ := Site.Handling.result_bind_eq_ok.mp h
    obtain ⟨date, hdate, h⟩ := Site.Handling.result_bind_eq_ok.mp h
    cases h
    exact .sent (hsel (Site.Handling.result_orFail_eq_ok.mp hdate)) hunchanged
      (Site.Handling.result_ofFiles_eq_ok.mp hcontent)

theorem gives_of_serveFolder {folder : Path} {mode : Nat} {r : Response}
    (hfolder : site.AsksFor t who q folder (.folder mode))
    (h : (site.serveFolder t who q folder).result = .ok r) : site.Gives t who q r := by
  unfold serveFolder at h
  cases hslash : endsInSlash q.path with
  | false =>
    rw [if_pos (by simp [hslash])] at h
    cases h
    exact .redirected hfolder hslash
  | true =>
    rw [if_neg (by simp [hslash])] at h
    cases hindex : site.indexPath? t who folder with
    | some index =>
      simp only [hindex] at h
      exact gives_of_serveFile (.index hfolder hslash hindex) h
    | none =>
      simp only [hindex] at h
      by_cases hlisting : site.settings.serve.directoryListing = true
      · rw [if_pos hlisting] at h
        unfold serveListing at h
        cases hrows : Site.rowsOf t who folder with
        | error e =>
          simp only [hrows] at h
          cases h
        | ok rows =>
          simp only [hrows] at h
          cases h
          exact .listed hfolder hslash hindex hlisting hrows
      · rw [if_neg hlisting] at h
        cases h

/-- **The answers of a site**: what is no failure is one of the four. -/
theorem gives_of_resolve {r : Response} (h : (site.resolve t who q).result = .ok r) :
    site.Gives t who q r := by
  unfold resolve at h
  obtain ⟨target, htarget, h⟩ := Site.Handling.result_bind_eq_ok.mp h
  obtain ⟨node, hnode, h⟩ := Site.Handling.result_bind_eq_ok.mp h
  obtain ⟨⟨⟩, hcontained, h⟩ := Site.Handling.result_bind_eq_ok.mp h
  have hasks : site.AsksFor t who q target node :=
    ⟨Site.Handling.result_orFail_eq_ok.mp htarget, Site.Handling.result_ofFiles_eq_ok.mp hnode,
      ensureContained_eq_ok.mp hcontained⟩
  cases node with
  | folder mode => exact gives_of_serveFolder hasks h
  | file content modified mode =>
    cases hslash : endsInSlash q.path with
    | true =>
      simp only [hslash] at h
      cases h
    | false =>
      simp only [hslash] at h
      exact gives_of_serveFile (.itself hasks (by simp) hslash) h
  | link target' =>
    cases hslash : endsInSlash q.path with
    | true =>
      simp only [hslash] at h
      cases h
    | false =>
      simp only [hslash] at h
      exact gives_of_serveFile (.itself hasks (by simp) hslash) h

/-- A response to an inquiry is one of these answers or an error page. -/
theorem gives_or_page_of_serve {r : Response} (h : (site.serve t who q).response = some r) :
    site.Gives t who q r ∨ ∃ e : Site.Failure, ∃ status message,
      (site.resolve t who q).result = .error e ∧ e.page? = some (status, message) ∧
        r = (errorAnswer status (some message) q.isHead).response := by
  unfold serve at h
  cases hresult : (site.resolve t who q).result with
  | ok r' =>
    simp only [hresult, Option.some.injEq] at h
    exact Or.inl (gives_of_resolve (hresult.trans (congrArg _ h)))
  | error e =>
    cases hpage : e.page? with
    | none => simp [hresult, hpage] at h
    | some page =>
      obtain ⟨status, message⟩ := page
      simp only [hresult, hpage, Option.some.injEq] at h
      exact Or.inr ⟨e, status, message, rfl, hpage, h.symm⟩

end OpenSite

end IsolatedSite
