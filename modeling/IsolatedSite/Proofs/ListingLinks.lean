/-
# Where the links of a listing lead

The targets of the links are read off the page of a listing as a browser would: behind the mark of a
link up to the closing quotation mark, with the entities undone.  They are those of the rows, one
after the other, whatever the names are and whatever path the page is for (`linksOf_listingPage`).

A link that is followed from a path with a slash at its end leads to the entry
(`links_lead_to_entries`): the path is translated up to its last slash as before, and what the
link adds is the escaped name.  The slash behind a link to a folder is what keeps the request from
being redirected, and that there is none behind a link to a file keeps it from being refused.
-/
import IsolatedSite.Proofs.Cutting
import IsolatedSite.Proofs.Escaping
import IsolatedSite.Proofs.FileAnswers
import IsolatedSite.Proofs.RealPaths

namespace IsolatedSite

open IsolatedSite.Http IsolatedSite.Http.Fields

/-! ## 1. Reading the links of a page -/

namespace Site

/-- What stands in front of the target of a link. -/
def linkMark : Text := "<li><a href=\"".toList

/-- The targets of the links of a page, in order. -/
def linksOf : Text → List Text
  | [] => []
  | c :: rest =>
    match afterStart? linkMark (c :: rest) with
    | some after => Html.unescape (after.takeWhile (· != '"')) :: linksOf rest
    | none => linksOf rest

/-- A text without a link in it, which does not make a link of what follows it either. -/
def HasNoLink (t : Text) : Prop := ∀ rest, linksOf (t ++ rest) = linksOf rest

theorem HasNoLink.append {s t : Text} (hs : HasNoLink s) (ht : HasNoLink t) : HasNoLink (s ++ t) :=
  fun rest => by rw [List.append_assoc, hs, ht]

/-- No link begins but with `<`. -/
theorem hasNoLink_of_not_mem {t : Text} (h : '<' ∉ t) : HasNoLink t := by
  intro rest
  induction t with
  | nil => rfl
  | cons c t ih =>
    have hne : '<' ≠ c := fun heq => h (heq ▸ List.mem_cons_self)
    have hmark : afterStart? linkMark (c :: (t ++ rest)) = none := if_neg hne
    rw [List.cons_append, linksOf, hmark]
    exact ih fun hmem => h (List.mem_cons_of_mem _ hmem)

/-- The mark of a link differs from a text within both of them, wherever in the text it is tried. -/
def clashes : Text → Bool
  | [] => true
  | c :: t =>
    !linkMark.isPrefixOf (c :: t) && !(c :: t).isPrefixOf linkMark && clashes t

theorem afterStart?_append_of_clash {α : Type} [DecidableEq α] {front t : List α}
    (h : front.isPrefixOf t = false) (h' : t.isPrefixOf front = false) (rest : List α) :
    afterStart? front (t ++ rest) = none := by
  induction front generalizing t with
  | nil => cases h
  | cons x front ih =>
    cases t with
    | nil => cases h'
    | cons y t =>
      by_cases hx : x = y
      · subst hx
        rw [List.cons_append, afterStart?, if_pos rfl]
        exact ih (by simpa using h) (by simpa using h')
      · rw [List.cons_append, afterStart?, if_neg hx]

theorem hasNoLink_of_clashes {t : Text} (h : clashes t = true) : HasNoLink t := by
  intro rest
  induction t with
  | nil => rfl
  | cons c t ih =>
    simp only [clashes, Bool.and_eq_true, Bool.not_eq_true'] at h
    obtain ⟨⟨hmark, hback⟩, ht⟩ := h
    have hnone : afterStart? linkMark (c :: (t ++ rest)) = none :=
      afterStart?_append_of_clash hmark hback rest
    rw [List.cons_append, linksOf, hnone]
    exact ih ht

theorem hasNoLink_escape (t : Text) : HasNoLink (Html.escape t) :=
  hasNoLink_of_not_mem (Html.not_mem_escape (by decide) t)

/-- **A link** is read up to the quotation mark behind its target. -/
theorem linksOf_link (target rest : Text) :
    linksOf (linkMark ++ (Html.escape target ++ '"' :: rest)) = target :: linksOf rest := by
  have hmark : ∀ after : Text, linksOf (linkMark ++ after) =
      Html.unescape (after.takeWhile (· != '"')) :: linksOf after := fun _ => rfl
  have hquote : '"' ∉ Html.escape target := Html.not_mem_escape (by decide) target
  have hend : (Html.escape target ++ '"' :: rest).takeWhile (· != '"') = Html.escape target :=
    takeWhile_run (fun c hc => bne_iff_ne.mpr fun heq => hquote (heq ▸ hc))
      (endsRun_cons (by simp) rest)
  rw [hmark, hend, Html.unescape_escape, hasNoLink_escape]
  rfl

/-- A row is a link and text without one. -/
theorem linksOf_row {quote behind : Text} (hquote : quote = ['"', '>'])
    (hbehind : HasNoLink behind) (target shown rest : Text) :
    linksOf (linkMark ++ Html.escape target ++ quote ++ Html.escape shown ++ behind ++ rest) =
      target :: linksOf rest := by
  have hclose : HasNoLink ['>'] := hasNoLink_of_clashes (by decide)
  have htext := hclose.append ((hasNoLink_escape shown).append hbehind) rest
  subst hquote
  simp only [List.append_assoc, List.cons_append, List.nil_append] at htext ⊢
  rw [linksOf_link, htext]

theorem linksOf_markup (row : Row) (rest : Text) :
    linksOf (row.markup ++ rest) = row.href :: linksOf rest :=
  linksOf_row (by decide) (hasNoLink_of_clashes (by decide)) row.href row.shown rest

theorem linksOf_rows (rows : List Row) (rest : Text) :
    linksOf (rows.flatMap Row.markup ++ rest) = rows.map Row.href ++ linksOf rest := by
  induction rows with
  | nil => rfl
  | cons row rows ih =>
    rw [List.flatMap_cons, List.append_assoc, linksOf_markup, ih]
    rfl

/-- What stands around the rows has no links in it. -/
theorem linksOf_around {top middle above below title : Text} (htop : HasNoLink top)
    (hmiddle : HasNoLink middle) (habove : HasNoLink above) (hbelow : HasNoLink below)
    (htitle : HasNoLink title) (rows : List Row) :
    linksOf (top ++ title ++ middle ++ title ++ above ++ rows.flatMap Row.markup ++ below) =
      rows.map Row.href := by
  have hhead := (((htop.append htitle).append hmiddle).append htitle).append habove
  have hend : linksOf below = [] := by
    rw [← List.append_nil below, hbelow]
    rfl
  rw [List.append_assoc, hhead, linksOf_rows, hend, List.append_nil]

/-- **The links of a listing** are those of its rows, in their order, and no others. -/
theorem linksOf_listingPage (path : Text) (rows : List Row) :
    linksOf (listingPage path rows) = rows.map Row.href := by
  unfold listingPage
  refine linksOf_around ?_ ?_ ?_ ?_ (hasNoLink_escape (listingTitle path)) rows
  all_goals exact hasNoLink_of_clashes (by decide +kernel)

/-! ## 2. The rows of a folder -/

/-- **Every entry has a row**, with its name if that is a text. -/
theorem exists_row_of_entry {t : Files.Tree} {who : Files.Caller} {folder : Path}
    {names : List (Bytes × Bool)} {rows : List Row} (hnames : t.list who [] folder = .ok names)
    (hrows : rowsOf t who folder = .ok rows) {name : Text} {isLink : Bool}
    (hentry : (Utf8.encode name, isLink) ∈ names) :
    ⟨name, t.isFolder who [] (Path.join folder (Utf8.encode name)), isLink⟩ ∈ rows := by
  rw [rowsOf, hnames] at hrows
  rw [← Except.ok.inj hrows, List.mem_mergeSort]
  refine List.mem_map.mpr ⟨_, hentry, ?_⟩
  rw [Utf8.decodeLossy_encode]

/-! ## 3. Following a link -/

/-- **What a row leads to**, from a path with a slash at its end, is the entry in the folder of the
path. -/
theorem translate?_append_href {root folder : Path} {path : Text} {row : Row}
    (hname : IsFileName row.name) (hpath : translate? root (path ++ ['/']) = some folder) :
    translate? root ((path ++ ['/']) ++ row.href) =
      some (Path.join folder (Utf8.encode row.name)) := by
  have hslash : OpenSite.endsInSlash (path ++ ['/']) = true := by simp [OpenSite.endsInSlash]
  have hentry := translate?_encode hname folder
  rw [translate?_append_of_endsInSlash hslash hpath, Row.href]
  cases row.isFolder with
  | false => simpa using hentry
  | true => rwa [if_pos rfl, translate?_concat_slash]

end Site

namespace OpenSite

variable {site : OpenSite} {t : Files.Tree} {who : Files.Caller}

/-- A link ends in a slash exactly if it leads to a folder. -/
theorem endsInSlash_append_href (path : Text) (row : Site.Row) (hname : row.name ≠ []) :
    endsInSlash (path ++ row.href) = row.isFolder := by
  rw [Site.Row.href]
  cases row.isFolder with
  | false =>
    rw [if_neg (by decide), List.append_nil]
    exact endsInSlash_append_encode path hname
  | true => simp [endsInSlash]

/-- Something that is no folder is asked for by a path with a slash at its end. -/
def AsksForFileAsFolder (site : OpenSite) (t : Files.Tree) (who : Files.Caller)
    (q : Site.Inquiry) : Prop :=
  ∃ target node, site.AsksFor t who q target node ∧ (∀ mode, node ≠ .folder mode) ∧
    endsInSlash q.path = true

/-- **A redirect** is the answer to nothing but a folder without a slash at the end of its path. -/
theorem asksForFolder_of_movedPermanently {q : Site.Inquiry} {r : Response}
    (h : (site.serve t who q).response = some r) (hstatus : r.status = .movedPermanently) :
    ∃ folder mode, site.AsksFor t who q folder (.folder mode) ∧ endsInSlash q.path = false := by
  rcases gives_or_page_of_serve h with hgives | ⟨e, status, message, -, hpage, rfl⟩
  · cases hgives with
    | redirected hasks hslash => exact ⟨_, _, hasks, hslash⟩
    | listed =>
      rw [pageAnswer_eq] at hstatus
      cases hstatus
    | unchanged hsel _ =>
      rw [notModifiedAnswer_eq (Calendar.isPlain_of_httpDate? hsel.dated)] at hstatus
      cases hstatus
    | sent hsel _ _ =>
      rw [fileAnswer_eq _ (isPlain_ofPath _) (Calendar.isPlain_of_httpDate? hsel.dated)] at hstatus
      cases hstatus
  · rw [errorAnswer_eq] at hstatus
    have hsame : status = .movedPermanently := hstatus
    subst hsame
    cases e <;> cases hpage

/-- **A slash where a folder is**, and none where there is no folder, is neither redirected nor
taken amiss. -/
theorem serve_of_slash_iff_folder {q : Site.Inquiry} {target : Path}
    (htarget : Site.translate? site.root q.path = some target)
    (hslash : endsInSlash q.path = t.isFolder who [] target) :
    (∀ r, (site.serve t who q).response = some r → r.status ≠ .movedPermanently) ∧
      ¬ site.AsksForFileAsFolder t who q := by
  refine ⟨fun r hr hmoved => ?_, ?_⟩
  · obtain ⟨folder, mode, hasks, hnone⟩ := asksForFolder_of_movedPermanently hr hmoved
    obtain rfl : target = folder := Option.some.inj (htarget.symm.trans hasks.translated)
    rw [hslash, Files.Tree.isFolder_iff.mpr ⟨mode, hasks.found⟩] at hnone
    cases hnone
  · rintro ⟨file, node, hasks, hfile, hsome⟩
    obtain rfl : target = file := Option.some.inj (htarget.symm.trans hasks.translated)
    obtain ⟨mode, hfolder⟩ := Files.Tree.isFolder_iff.mp (hslash ▸ hsome)
    exact hfile mode (Except.ok.inj (hasks.found.symm.trans hfolder))

/-! ## 4. The links of a listing -/

/-- A request is answered with the listing of a folder. -/
structure ListsFolder (site : OpenSite) (t : Files.Tree) (who : Files.Caller) (q : Site.Request)
    (folder : Path) (r : Response) : Prop where
  slash : endsInSlash q.target.path = true
  translated : Site.translate? site.root q.target.path = some folder
  response : (site.answer t who q).response = some r
  listed : ∃ rows, Site.rowsOf t who folder = .ok rows ∧ r = site.finished
    (pageAnswer (Site.listingPage (Percent.decodeText q.target.path) rows) false).response

/-- What is read of the page of a listing: the targets of its rows. -/
theorem ListsFolder.linksOf_body {q : Site.Request} {folder : Path} {r : Response}
    (h : site.ListsFolder t who q folder r) : ∃ rows, Site.rowsOf t who folder = .ok rows ∧
      Site.linksOf (Utf8.decodeLossy r.body) = rows.map Site.Row.href := by
  obtain ⟨rows, hrows, rfl⟩ := h.listed
  refine ⟨rows, hrows, ?_⟩
  rw [body_finished, pageAnswer_eq, bodyUnless_eq_self rfl, Utf8.decodeLossy_encode,
    Site.linksOf_listingPage]

/-- **Links lead to entries.**  The page of a listing has, for every entry of the folder whose
name is a text, a link that leads from the path of the page to the entry.  It ends in a slash
exactly if the entry is found to be a folder, so the request for it is never redirected, and never
one for a file with a slash at the end of its path. -/
theorem links_lead_to_entries {q : Site.Request} {folder : Path} {r : Response}
    (h : site.ListsFolder t who q folder r) {names : List (Bytes × Bool)}
    (hnames : t.list who [] folder = .ok names) {name : Text} {isLink : Bool}
    (hentry : (Utf8.encode name, isLink) ∈ names) (hname : Site.IsFileName name) :
    ∃ href ∈ Site.linksOf (Utf8.decodeLossy r.body),
      Site.translate? site.root (q.target.path ++ href) =
        some (Path.join folder (Utf8.encode name)) ∧
      (endsInSlash (q.target.path ++ href) = true ↔
        t.isFolder who [] (Path.join folder (Utf8.encode name)) = true) ∧
      ∀ next : Site.Request, next.method = Site.methodGet →
        next.target.path = q.target.path ++ href →
        (∀ r', (site.answer t who next).response = some r' → r'.status ≠ .movedPermanently) ∧
        ¬ site.AsksForFileAsFolder t who (.ofRequest next) := by
  obtain ⟨rows, hrows, hlinks⟩ := h.linksOf_body
  have hrow := Site.exists_row_of_entry hnames hrows hentry
  have hslash := endsInSlash_append_href q.target.path
    ⟨name, t.isFolder who [] (Path.join folder (Utf8.encode name)), isLink⟩ hname.ne_nil
  have htarget : Site.translate? site.root (q.target.path ++ Site.Row.href ⟨name,
      t.isFolder who [] (Path.join folder (Utf8.encode name)), isLink⟩) =
        some (Path.join folder (Utf8.encode name)) := by
    obtain ⟨front, hfront⟩ : ∃ front, q.target.path = front ++ ['/'] :=
      List.getLast?_eq_some_iff.mp (by simpa [endsInSlash] using h.slash)
    have htranslated := h.translated
    rw [hfront] at htranslated ⊢
    exact Site.translate?_append_href hname htranslated
  refine ⟨_, hlinks ▸ List.mem_map_of_mem hrow, htarget, by rw [hslash], ?_⟩
  intro next hmethod hpath
  obtain ⟨hmoved, hfile⟩ := serve_of_slash_iff_folder (q := .ofRequest next)
    ((congrArg _ hpath).trans htarget) ((congrArg endsInSlash hpath).trans hslash)
  refine ⟨fun r' hr' => ?_, hfile⟩
  rw [response_answer (Or.inl hmethod), Option.map_eq_some_iff] at hr'
  obtain ⟨inner, hinner, rfl⟩ := hr'
  exact status_finished inner ▸ hmoved inner hinner

/-- A folder that holds a link to another one, under a name with markup in it. -/
def treeWithMarkup : Files.Tree :=
  ⟨[([ascii "www"], .folder 0o755), ([ascii "www", ascii "d"], .folder 0o755),
    ([ascii "www", ascii "d", ascii "<b>"], .link (ascii "/www"))]⟩

/-- The request for that folder, with an escape in its path. -/
def requestForD : Site.Request := ⟨Site.methodGet, ⟨"/%64/".toList, none⟩, .http11, []⟩

/-- The answer to it. -/
def listingOfD : Response :=
  siteOfWww.finished (pageAnswer (Site.listingPage "/d/".toList
    [⟨"<b>".toList, true, true⟩]) false).response

/-- **A link to a folder** is listed like a folder. -/
theorem link_leads_to_linked_folder :
    (siteOfWww.answer treeWithMarkup .other requestForD).response = some listingOfD ∧
      ∃ href ∈ Site.linksOf (Utf8.decodeLossy listingOfD.body),
        Site.translate? siteOfWww.root ("/%64/".toList ++ href) = some (ascii "/www/d/<b>") ∧
        endsInSlash ("/%64/".toList ++ href) = true ∧
        ∀ r, (siteOfWww.answer treeWithMarkup .other ⟨Site.methodGet,
          ⟨"/%64/".toList ++ href, none⟩, .http11, []⟩).response = some r →
            r.status ≠ .movedPermanently := by
  have hlists : siteOfWww.ListsFolder treeWithMarkup .other requestForD (ascii "/www/d")
      listingOfD :=
    ⟨by decide, by decide +kernel, by decide +kernel, [⟨"<b>".toList, true, true⟩],
      by decide +kernel, by decide +kernel⟩
  have hnames : treeWithMarkup.list .other [] (ascii "/www/d") = .ok [(ascii "<b>", true)] := by
    decide +kernel
  have hentry : (Utf8.encode "<b>".toList, true) ∈ [(ascii "<b>", true)] := by decide
  have hname : Site.IsFileName "<b>".toList :=
    ⟨⟨by decide, by decide, by decide, by decide⟩, by decide⟩
  obtain ⟨href, hmem, htarget, hslash, hnext⟩ :=
    links_lead_to_entries hlists hnames hentry hname
  exact ⟨hlists.response, href, hmem, htarget, hslash.mpr (by decide +kernel),
    (hnext _ rfl rfl).1⟩

end OpenSite

end IsolatedSite
