/-
Where the links between the pages of a site lead.

A link is read as it stands on a page: the text in quotes behind `href=` (`hrefIn`), taken as a path
from the folder of that page. In the list of all pages and on the cards of the index such a path
first goes up as many steps as the page lies in folders, and so leads from every page to the file
that it is for, unless a quote in the name of a module, which nothing escapes, ends it before its
time. The link to the index above the page of a module goes up once for each part of a dotted name,
though the last of them is no folder.
-/
import Docsmith.Proofs.Containment
import Docsmith.Proofs.Escaping
import Mathlib.Data.List.TakeWhile

namespace Docsmith

open Text Path List

/-! ## Steps up -/

namespace Path

/-- So many steps up, as a link writes them. -/
def upward (n : Nat) : String := String.join (replicate n "../")

theorem upward_succ (n : Nat) : upward (n + 1) = "../" ++ upward n := by
  rw [upward, replicate_succ, String.join_cons, upward]

theorem length_upward (n : Nat) : (upward n).toList.length = 3 * n := by
  induction n with
  | zero => rfl
  | succ n ih =>
    have hstep : "../".toList.length = 3 := rfl
    rw [upward_succ, String.toList_append, length_append, ih, hstep]
    omega

theorem partsOf_upward (n : Nat) (s : String) :
    partsOf (upward n ++ s) = replicate n ".." ++ partsOf s := by
  induction n with
  | zero => rw [show upward 0 = "" from rfl, String.empty_append]; rfl
  | succ n ih =>
    have hcut (cs : List Char) :
        cut '/' ("../".toList ++ cs) = "..".toList :: cut '/' cs := rfl
    rw [upward_succ, String.append_assoc, partsOf, String.toList_append, hcut, replicate_succ,
      cons_append, ← ih]
    rfl

theorem subset_of_mem_partsOf {s x : String} (h : x ∈ partsOf s) : x.toList ⊆ s.toList := by
  obtain ⟨piece, hpiece, rfl⟩ := mem_map.1 (mem_filter.1 h).1
  rw [String.toList_ofList]
  exact fun c hc => (mem_cut hpiece c hc).1

theorem not_isAbsolute_upward {s : String} (hs : s.toList.head? ≠ some '/') (n : Nat) :
    (ofString (upward n ++ s)).isAbsolute = false := by
  rw [Bool.eq_false_iff, ne_eq, isAbsolute_ofString, String.toList_append]
  cases n with
  | zero => simpa [upward] using hs
  | succ n => rw [upward_succ, String.toList_append]; simp

theorem climb_upward (done : List String) (n : Nat) (xs : List String) :
    climb done (replicate n ".." ++ xs) = climb (done.drop n) xs := by
  induction n generalizing done with
  | zero => rfl
  | succ n ih => rw [replicate_succ, cons_append, climb, if_pos rfl, ih, drop_tail]

end Path

/-- From a folder some way below another, a path that first goes up leads to what is left of the way
and its own names behind that. -/
theorem FileTree.place_upward (t : FileTree) {base : Path} {folders : List String} {s : String}
    (hfolders : ∀ x ∈ folders, x ≠ "..") (hs : s.toList.head? ≠ some '/')
    (hparts : ∀ x ∈ partsOf s, x ≠ "..") (n : Nat) :
    t.place ((⟨base.root, base.parts ++ folders⟩ : Path) / (upward n ++ s)) =
      (t.place base ++ folders).take ((t.place base ++ folders).length - n) ++ partsOf s := by
  have hjoin : (⟨base.root, base.parts ++ folders⟩ : Path) / (upward n ++ s) =
      ⟨base.root, base.parts ++ (folders ++ (replicate n ".." ++ partsOf s))⟩ := by
    refine (if_neg ?_).trans ?_
    · rw [not_isAbsolute_upward hs]
      exact Bool.false_ne_true
    · rw [← partsOf_upward, ← append_assoc]
      rfl
  rw [hjoin, place, resolve]
  dsimp only
  rw [join_parts, climb_append, climb_append, climb_names hfolders,
    reverse_reverse, climb_upward, climb_names hparts, reverse_drop,
    reverse_reverse, length_reverse]
  rfl

namespace Page

/-! ## Links on pages -/

/-- What the first link in a text names: the text in quotes behind `href=`. -/
def hrefIn : List Char → List Char
  | [] => []
  | c :: cs =>
    if "href=\"".toList.isPrefixOf (c :: cs) then ((c :: cs).drop 6).takeWhile (· != '"')
    else hrefIn cs

def written (ls : List Markup) : List Char := (render false (lines ls)).toList

/-- A part of a page with a link in it, and the file that the link is for. -/
structure Link where
  text : List Char
  file : Path

/-- From the page in a file, a link leads to the file that it is for. -/
def Link.Leads (l : Link) (page : Path) : Prop :=
  ∀ t : FileTree, t.place (page.parent / String.ofList (hrefIn l.text)) = t.place l.file

def indexEntry (up : String) (current : Option String) : List Markup :=
  ["            <a href=\"" ++ up ++ "index.html\" " ++ on current.isNone "class=\"active\"" ++ ">",
    "                <span class=\"nav-icon\">📋</span> Index",
    "            </a>"]

def indexLink (out : Path) (current : Option String) (up : String) : Link :=
  ⟨written (indexEntry up current), indexFile .html out⟩

def moduleLink (out : Path) (current : Option String) (up : String) (m : ModuleDoc) : Link :=
  ⟨written (navEntry up current m), moduleFile .html out m⟩

def cardLink (out : Path) (m : ModuleDoc) : Link := ⟨written (moduleCard m), moduleFile .html out m⟩

/-- The link to the index above the page of a module. -/
def crumb (out : Path) (m : ModuleDoc) : Link :=
  ⟨written ["        <a href=\"" ++ breadcrumb m.name ++ "index.html\">Index</a>"],
    indexFile .html out⟩

/-- A page shows links, one after the other. -/
def Shows (text : String) (links : List Link) : Prop := links.flatMap Link.text <:+: text.toList

/-- A page shows the list of all pages. In it the link to the index leads there, and the link to the
page of a module does so unless a quote in its name ends it. -/
structure Navigates (p : ProjectDoc) (out page : Path) (text : String) (current : Option String)
    (up : String) : Prop where
  shows : Shows text (indexLink out current up :: p.modules.map (moduleLink out current up))
  index : (indexLink out current up).Leads page
  modules : ∀ m ∈ p.modules, (moduleLink out current up m).Leads page ↔ '"' ∉ m.name.toList

section Shown

variable {p : ProjectDoc} {out : Path} {m : ModuleDoc} {current : Option String} {up title : String}

theorem written_append (xs ys : List Markup) : written (xs ++ ys) = written xs ++ written ys := by
  rw [written, lines, flatMap_append, render_append, String.toList_append]
  rfl

theorem written_flatMap {α : Type} (xs : List α) (f : α → List Markup) :
    written (xs.flatMap f) = xs.flatMap fun x => written (f x) := by
  induction xs with
  | nil => rfl
  | cons x xs ih => rw [flatMap_cons, flatMap_cons, written_append, ih]

theorem infix_written {ls all : List Markup} (h : ls <:+: all) (rest : Markup) :
    written ls <:+: (render false (lines all ++ rest)).toList := by
  obtain ⟨xs, ys, rfl⟩ := h
  have hall : (render false (lines (xs ++ ls ++ ys))).toList =
      written xs ++ written ls ++ written ys := by
    rw [← written_append, ← written_append]
    rfl
  rw [render_append, String.toList_append, hall]
  exact (infix_append _ _ _).trans (prefix_append _ _).isInfix

theorem infix_page (template : Template) (body : Markup) :
    (render false (frameHead p title current up)).toList <:+:
        (htmlPage Template.escapes p title template body current up).toList ∧
      (render false body).toList <:+:
        (htmlPage Template.escapes p title template body current up).toList := by
  rw [escapes_eq_false, htmlPage_const, render_append, render_append, String.toList_append,
    String.toList_append]
  exact ⟨((prefix_append _ _).trans (prefix_append _ _)).isInfix, infix_append _ _ _⟩

theorem shows_sidebar (template : Template) (body : Markup) :
    Shows (htmlPage Template.escapes p title template body current up)
      (indexLink out current up :: p.modules.map (moduleLink out current up)) := by
  have hlinks : (indexLink out current up :: p.modules.map (moduleLink out current up)).flatMap
      Link.text = written (indexEntry up current ++ p.modules.flatMap (navEntry up current)) := by
    rw [written_append, written_flatMap, flatMap_cons, flatMap_map]
    simp only [indexLink, moduleLink]
  have hlist {xs es : List Markup} (n : Nat) (h : xs.drop n = es) (ms ys : List Markup) :
      es ++ ms <:+: blocks [xs, ms, ys] :=
    ⟨xs.take n, ys, by simp [blocks, ← h, ← append_assoc]⟩
  have hhead : written (indexEntry up current ++ p.modules.flatMap (navEntry up current)) <:+:
      (render false (frameHead p title current up)).toList := by
    rw [frameHead]
    refine infix_written ?_ _
    refine hlist 22 ?_ _ _
    rfl
  rw [Shows, hlinks]
  exact hhead.trans (infix_page template body).1

theorem indexText_html (p : ProjectDoc) : indexText .html p =
    htmlPage Template.escapes p p.title .index (htmlIndex p) none "" := rfl

theorem shows_cards : Shows (indexText .html p) (p.modules.map (cardLink out)) := by
  have hlinks : (p.modules.map (cardLink out)).flatMap Link.text =
      written (p.modules.flatMap moduleCard) := by
    rw [written_flatMap, flatMap_map]
    simp only [cardLink]
  have hlist (xss : List (List Markup)) (ms : List Markup) : ms <:+: blocks (xss ++ [ms]) :=
    ⟨xss.flatten, [], by simp [blocks]⟩
  have hbody : written (p.modules.flatMap moduleCard) <:+: (render false (htmlIndex p)).toList := by
    rw [htmlIndex]
    refine infix_written ?_ _
    exact hlist [_, _, _, _, _] _
  rw [Shows, hlinks, indexText_html]
  exact hbody.trans (infix_page .index (htmlIndex p)).2

theorem shows_crumb : Shows (htmlModulePage Template.escapes p m up) [crumb out m] := by
  have hlist (xs : List Markup) (l : Markup) (ys : List Markup) (xss : List (List Markup)) :
      [l] <:+: blocks ((xs ++ l :: ys) :: xss) :=
    ⟨xs, ys ++ xss.flatten, by simp [blocks]⟩
  have hbody : (crumb out m).text <:+: (render false (htmlModule m ++ [])).toList := by
    rw [htmlModule]
    exact infix_written (hlist [_, _] _ _ _) []
  rw [append_nil] at hbody
  rw [Shows, flatMap_singleton]
  exact hbody.trans (infix_page .module (htmlModule m)).2

end Shown

/-! ## What links name -/

section Named

variable {up : String} {current : Option String} {m : ModuleDoc}

theorem takeWhile_quote (value rest : List Char) :
    (value ++ '"' :: rest).takeWhile (· != '"') = value.takeWhile (· != '"') := by
  induction value with
  | nil => rfl
  | cons c value ih => simp only [cons_append, takeWhile_cons, ih]

/-- Whether no link starts in a text, whatever follows it. -/
def linkless : List Char → Bool
  | [] => true
  | c :: cs =>
    !("href=\"".toList.isPrefixOf (c :: cs) || (c :: cs).isPrefixOf "href=\"".toList) && linkless cs

theorem hrefIn_linkless {cs : List Char} (h : linkless cs = true) (rest : List Char) :
    hrefIn (cs ++ rest) = hrefIn rest := by
  induction cs with
  | nil => rfl
  | cons c cs ih =>
    simp only [linkless, Bool.and_eq_true, Bool.not_eq_true', Bool.or_eq_false_iff] at h
    rw [cons_append, hrefIn, if_neg, ih h.2]
    intro hlink
    have hwhole : c :: cs <+: c :: (cs ++ rest) := prefix_append (c :: cs) rest
    rcases prefix_or_prefix_of_prefix (List.isPrefixOf_iff_prefix.1 hlink) hwhole with hp | hp
    · exact absurd (h.1.1.symm.trans (List.isPrefixOf_iff_prefix.2 hp)) Bool.false_ne_true
    · exact absurd (h.1.2.symm.trans (List.isPrefixOf_iff_prefix.2 hp)) Bool.false_ne_true

theorem written_cons (l : Markup) (ls : List Markup) :
    written (l :: ls) = (render false l).toList ++ '\n' :: written ls := by
  have hend : render false [.markup "\n"] = "\n" := rfl
  rw [written, lines, flatMap_cons, render_append, render_append, hend, String.toList_append,
    String.toList_append, append_assoc]
  rfl

theorem hrefIn_written_linkless {s : String} (h : linkless (s.toList ++ ['\n']) = true)
    (ls : List Markup) : hrefIn (written ([.markup s] :: ls)) = hrefIn (written ls) := by
  rw [written_cons, ← hrefIn_linkless h (written ls), append_assoc]
  simp [render, Piece.render]

theorem hrefIn_written {lead : String} {value : List Char} {l : Markup} (rest : List Char)
    (hlead : ∀ r, hrefIn (lead.toList ++ r) = r.takeWhile (· != '"'))
    (hl : (render false l).toList = lead.toList ++ (value ++ '"' :: rest)) (ls : List Markup) :
    hrefIn (written (l :: ls)) = value.takeWhile (· != '"') := by
  rw [written_cons, hl, append_assoc, hlead, append_assoc, cons_append,
    takeWhile_quote]

theorem hrefIn_entry (r : List Char) :
    hrefIn ("            <a href=\"".toList ++ r) = r.takeWhile (· != '"') := rfl

theorem hrefIn_navEntry : hrefIn (written (navEntry up current m)) =
    (up ++ (m.pagePath ++ ".html")).toList.takeWhile (· != '"') := by
  refine hrefIn_written [] hrefIn_entry ?_ _
  simp [toList_render, Piece.render, shown]

theorem hrefIn_indexEntry : hrefIn (written (indexEntry up current)) =
    (up ++ "index.html").toList.takeWhile (· != '"') := by
  refine hrefIn_written (" " ++ on current.isNone "class=\"active\"" ++ ">").toList hrefIn_entry ?_
    _
  simp [toList_render, Piece.render]

theorem hrefIn_inner (r : List Char) :
    hrefIn ("        <a href=\"".toList ++ r) = r.takeWhile (· != '"') := rfl

theorem hrefIn_crumb (out : Path) : hrefIn (crumb out m).text =
    (breadcrumb m.name ++ "index.html").toList.takeWhile (· != '"') := by
  refine hrefIn_written ">Index</a>".toList hrefIn_inner ?_ _
  simp [toList_render, Piece.render]

theorem hrefIn_moduleCard : hrefIn (written (moduleCard m)) =
    (m.pagePath ++ ".html").toList.takeWhile (· != '"') := by
  rw [moduleCard, hrefIn_written_linkless (by decide), hrefIn_written_linkless (by decide),
    hrefIn_written_linkless (by decide)]
  refine hrefIn_written (">" ++ m.name ++ "</a>").toList hrefIn_inner ?_ _
  simp [toList_render, Piece.render, shown]

end Named

/-! ## Where links lead -/

section Leads

variable {p : ProjectDoc} {out page : Path} {m : ModuleDoc} {folders : List String}
  {text : List Char}

theorem takeWhile_upward (n : Nat) (cs : List Char) :
    ((upward n).toList ++ cs).takeWhile (· != '"') =
      (upward n).toList ++ cs.takeWhile (· != '"') := by
  induction n with
  | zero => rfl
  | succ n ih =>
    rw [upward_succ, String.toList_append, append_assoc, append_assoc, ← ih]
    rfl

theorem place_back (t : FileTree) {s : String} (hfolders : ∀ x ∈ folders, x ≠ "..")
    (hs : s.toList.head? ≠ some '/') (hparts : ∀ x ∈ partsOf s, x ≠ "..") :
    t.place ((⟨out.root, out.parts ++ folders⟩ : Path) / (upward folders.length ++ s)) =
      t.place out ++ partsOf s := by
  rw [t.place_upward hfolders hs hparts, length_append, Nat.add_sub_cancel, take_left]

theorem leads_index (hfolders : ∀ x ∈ folders, x ≠ "..")
    (hpage : page.parent = ⟨out.root, out.parts ++ folders⟩)
    (htext : hrefIn text =
      (upward folders.length ++ "index.html").toList.takeWhile (· != '"')) :
    Link.Leads ⟨text, indexFile .html out⟩ page := by
  intro t
  have hindex := (isPage_indexFile .html out).place t
  have hhref : String.ofList (hrefIn text) = upward folders.length ++ "index.html" := by
    rw [htext, String.toList_append, takeWhile_upward]
    exact String.toList_inj.1 (by simp)
  rw [hhref, hpage, place_back t hfolders (by decide) (by decide), hindex]
  rfl

theorem quote_mem_pagePath : '"' ∈ m.pagePath.toList ↔ '"' ∈ m.name.toList := by
  rw [ModuleDoc.pagePath, String.toList_map, mem_map]
  constructor
  · rintro ⟨c, hc, hquote⟩
    split at hquote
    · cases hquote
    · rwa [← hquote]
  · exact fun h => ⟨'"', h, rfl⟩

/-- The link to the page of a module leads there, unless a quote in its name ends it. -/
theorem leads_module_iff (hfolders : ∀ x ∈ folders, x ≠ "..")
    (hpage : page.parent = ⟨out.root, out.parts ++ folders⟩) (hm : ¬ Rooted m)
    (htext : hrefIn text =
      (upward folders.length ++ (m.pagePath ++ ".html")).toList.takeWhile (· != '"')) :
    Link.Leads ⟨text, moduleFile .html out m⟩ page ↔ '"' ∉ m.name.toList := by
  have hstart {cs : List Char} (h : cs <+: (m.pagePath ++ ".html").toList) :
      (String.ofList cs).toList.head? ≠ some '/' := by
    rw [String.toList_ofList]
    intro hhead
    obtain ⟨ds, rfl⟩ := head?_eq_some_iff.1 hhead
    obtain ⟨rest, hrest⟩ := h
    refine hm ((isAbsolute_page .html m).1 ((isAbsolute_ofString _).2 ?_))
    exact congrArg head? hrest.symm
  have hhref : String.ofList (hrefIn text) = upward folders.length ++
      String.ofList ((m.pagePath ++ ".html").toList.takeWhile (· != '"')) := by
    rw [htext, String.toList_append, takeWhile_upward]
    exact String.toList_inj.1 (by simp)
  rw [Link.Leads, hhref, hpage, ← quote_mem_pagePath]
  simp only [place_moduleFile_of_not_rooted hm]
  constructor
  · intro hleads hquote
    -- What is left of the path has no dot in it, but the name of the page has one.
    obtain ⟨before, after, hsplit⟩ := append_of_mem hquote
    have hleft : (m.pagePath ++ ".html").toList.takeWhile (· != '"') =
        before.takeWhile (· != '"') := by
      rw [String.toList_append, hsplit, append_assoc, cons_append, takeWhile_quote]
    have hdot : ∀ x ∈ partsOf (String.ofList (before.takeWhile (· != '"'))),
        '.' ∉ x.toList := by
      intro x hx hmem
      refine dot_not_mem_pagePath m ?_
      have hbefore := subset_of_mem_partsOf hx hmem
      rw [String.toList_ofList] at hbefore
      rw [hsplit]
      exact mem_append_left _ (takeWhile_subset _ hbefore)
    have hplace := hleads ⟨out, []⟩
    rw [hleft, place_back _ hfolders ?_ fun x hx hdots => hdot x hx (hdots ▸ by decide)] at hplace
    · obtain ⟨names, last, hparts, -, -, hends⟩ := partsOf_page .html m
      rw [hparts] at hplace
      have hlast : last ∈ partsOf (String.ofList (before.takeWhile (· != '"'))) := by
        rw [append_cancel_left hplace]
        exact mem_append_right _ (mem_singleton_self last)
      exact hdot last hlast (hends.subset (by decide))
    · exact hstart (hleft ▸ takeWhile_prefix _)
  · intro hquote t
    have hwhole : (m.pagePath ++ ".html").toList.takeWhile (· != '"') =
        (m.pagePath ++ ".html").toList := by
      refine takeWhile_eq_self_iff.2 fun c hc => bne_iff_ne.2 fun hc' => ?_
      rw [hc', String.toList_append] at hc
      exact (mem_append.1 hc).elim hquote (by decide)
    have hfirst := hstart (prefix_refl _)
    rw [String.ofList_toList] at hfirst
    rw [hwhole, String.ofList_toList, place_back t hfolders hfirst fun x hx =>
      ne_dots_of_mem_page (f := .html) hx]
    rfl

/-- The page of a module, its folders below that of the pages, and the steps back. -/
theorem exists_folders (hm : ¬ Rooted m) (out : Path) : ∃ folders,
    (∀ x ∈ folders, x ≠ "..") ∧
    (moduleFile .html out m).parent = ⟨out.root, out.parts ++ folders⟩ ∧
    stepsUp (moduleFile .html out m) out = .ok (upward folders.length) ∧
    folders.length < (cut '/' m.pagePath.toList).length := by
  obtain ⟨folders, hfolders, hparent⟩ := parent_moduleFile_of_not_rooted .html out hm
  refine ⟨folders, hfolders, hparent, ?_, ?_⟩
  · rw [stepsUp, hparent, relativeTo?, if_pos (by simp)]
    simp only [drop_left]
    rfl
  · -- The extension stays in the last piece, and all pieces but that one are folders at most.
    obtain ⟨front, piece, hcut, happ⟩ := cut_append_plain m.pagePath.toList
      (show '/' ∉ ".html".toList by decide)
    have hpieces : (partsOf (m.pagePath ++ ".html")).length ≤ (front ++ [piece]).length := by
      refine (length_filter_le _ _).trans (Nat.le_of_eq ?_)
      rw [length_map, String.toList_append, happ]
      simp
    have hlen := congrArg (fun p : Path => p.parts.length) hparent
    rw [moduleFile_of_not_rooted hm] at hlen
    simp only [parent, length_dropLast, length_append, Format.extension] at hlen
    rw [length_append, length_singleton] at hpieces
    rw [hcut, length_append, length_singleton]
    omega

theorem parent_indexFile_append (out : Path) :
    (indexFile .html out).parent = ⟨out.root, out.parts ++ []⟩ := by
  rw [parent_indexFile, append_nil]

theorem cardLink_leads_iff (hm : ¬ Rooted m) (out : Path) :
    (cardLink out m).Leads (indexFile .html out) ↔ '"' ∉ m.name.toList := by
  refine leads_module_iff (by simp) (parent_indexFile_append out) hm ?_
  rw [hrefIn_moduleCard]
  rfl

theorem navigates (hnames : ∀ m ∈ p.modules, ¬ Rooted m) (hfolders : ∀ x ∈ folders, x ≠ "..")
    (hpage : page.parent = ⟨out.root, out.parts ++ folders⟩) (title : String) (template : Template)
    (body : Markup) (current : Option String) :
    Navigates p out page
      (htmlPage Template.escapes p title template body current (upward folders.length))
      current (upward folders.length) where
  shows := shows_sidebar template body
  index := leads_index hfolders hpage hrefIn_indexEntry
  modules := fun m hm => leads_module_iff hfolders hpage (hnames m hm) hrefIn_navEntry

/-- **The links of a site.** Every page has the list of all pages in it, and the index a card for
each module. The links in them lead to the files that they are for, those to a module exactly if its
name has no quote in it. -/
theorem links_lead_iff (p : ProjectDoc) (out : Path) (hnames : ∀ m ∈ p.modules, ¬ Rooted m) :
    ∃ ps, pages .html p out = .ok ((indexFile .html out, indexText .html p) :: ps) ∧
      (∀ w w' files, (writeSite .html p out).exec w = (.ok files, w') →
        writePages w.files ((indexFile .html out, indexText .html p) :: ps) = .ok w'.files) ∧
      Shows (indexText .html p) (p.modules.map (cardLink out)) ∧
      (∀ m ∈ p.modules,
        (cardLink out m).Leads (indexFile .html out) ↔ '"' ∉ m.name.toList) ∧
      ∀ page ∈ (indexFile .html out, indexText .html p) :: ps,
        ∃ current up, Navigates p out page.1 page.2 current up := by
  have hmodules : ∀ m ∈ p.modules, ∃ page, modulePage .html p out m = .ok page ∧
      ∃ current up, Navigates p out page.1 page.2 current up := by
    intro m hm
    obtain ⟨folders, hfolders, hparent, hup, -⟩ := exists_folders (hnames m hm) out
    refine ⟨(moduleFile .html out m,
      htmlModulePage Template.escapes p m (upward folders.length)), ?_, some m.name,
      upward folders.length, ?_⟩
    · rw [modulePage, moduleText, hup]
      rfl
    · dsimp only
      rw [htmlModulePage]
      exact navigates hnames hfolders hparent _ .module (htmlModule m) (some m.name)
  obtain ⟨ps, hps⟩ := Except.mapM_ok fun m hm => ⟨_, (hmodules m hm).choose_spec.1⟩
  have hpages : pages .html p out = .ok ((indexFile .html out, indexText .html p) :: ps) := by
    rw [pages, hps]
    rfl
  refine ⟨ps, hpages, fun w w' files h => ?_, shows_cards,
    fun m hm => cardLink_leads_iff (hnames m hm) out, fun page hpage => ?_⟩
  · obtain ⟨ps', t, hps', hwrite, rfl, -⟩ := writeSite_ok.1 h
    rwa [← Except.ok.inj (hpages.symm.trans hps')] at hwrite
  · rcases mem_cons.1 hpage with rfl | hpage
    · have hindex := navigates hnames (by simp) (parent_indexFile_append out) p.title .index
        (htmlIndex p) none
      have hup : upward ([] : List String).length = "" := rfl
      rw [hup, ← indexText_html] at hindex
      dsimp only
      exact ⟨none, "", hindex⟩
    · obtain ⟨m, hm, hpage⟩ := Except.mem_of_mapM hps hpage
      obtain ⟨page', hpage', hlinks⟩ := hmodules m hm
      rwa [← Except.ok.inj (hpage.symm.trans hpage')] at hlinks

def quoted : ProjectDoc where
  modules := [{ path := "src/say\"hi.py", name := "say\"hi" }]

theorem quoted_card_astray :
    (∀ m ∈ quoted.modules, ¬ Rooted m) ∧
      ∀ m ∈ quoted.modules,
        ¬ (cardLink (.ofString "out") m).Leads (indexFile .html (.ofString "out")) := by
  have hnames : ∀ m ∈ quoted.modules, ¬ Rooted m := by
    simp only [Rooted]
    decide
  obtain ⟨ps, -, -, -, hcards, -⟩ := links_lead_iff quoted (.ofString "out") hnames
  refine ⟨hnames, fun m hm hleads => ?_⟩
  have hquote : ∀ m ∈ quoted.modules, '"' ∈ m.name.toList := by decide
  exact (hcards m hm).1 hleads (hquote m hm)

/-! ## The link above the page of a module -/

theorem length_cut_pagePath (hslash : '/' ∉ m.name.toList) :
    (cut '/' m.pagePath.toList).length = (cut '.' m.name.toList).length := by
  rw [length_cut, length_cut, ModuleDoc.pagePath, String.toList_map]
  generalize m.name.toList = cs at hslash
  induction cs with
  | nil => rfl
  | cons c cs ih =>
    rw [mem_cons, not_or] at hslash
    have hc := ih hslash.2
    by_cases hdot : c = '.'
    · simpa [hdot] using hc
    · simpa [hdot, Ne.symm hslash.1] using hc

/-- Of a name with a dot, more steps up than its page has folders. -/
theorem breadcrumb_upward (hslash : '/' ∉ m.name.toList)
    (hlen : folders.length < (cut '/' m.pagePath.toList).length) :
    ∃ n, breadcrumb m.name = upward n ∧ folders.length ≤ n ∧
      (n = folders.length ↔ '.' ∉ m.name.toList) := by
  rw [length_cut_pagePath hslash] at hlen
  by_cases hdot : '.' ∈ m.name.toList
  · refine ⟨(cut '.' m.name.toList).length, if_pos (elem_eq_true_of_mem hdot), hlen.le,
      ?_⟩
    simp [hdot, hlen.ne']
  · have hone : (cut '.' m.name.toList).length = 1 := by
      rw [cut_eq_splitOn, splitOn_eq_singleton hdot]
      rfl
    refine ⟨0, if_neg ?_, ?_, ?_⟩
    · simpa using hdot
    · omega
    · simp only [hdot, not_false_eq_true, iff_true]
      omega

/-- **The link above a module.** It takes the steps up of its page exactly if the name of the module
has no dot, and leads to the index only then, unless the pages lie in the root folder. -/
theorem breadcrumb_leads_iff (p : ProjectDoc) (out : Path) (m : ModuleDoc) (hm : ¬ Rooted m)
    (hslash : '/' ∉ m.name.toList) :
    ∃ up text, stepsUp (moduleFile .html out m) out = .ok up ∧
      moduleText .html p out m = .ok text ∧ Shows text [crumb out m] ∧
      (String.ofList (hrefIn (crumb out m).text) = up ++ "index.html" ↔ '.' ∉ m.name.toList) ∧
      ∀ t : FileTree,
        t.place ((moduleFile .html out m).parent / String.ofList (hrefIn (crumb out m).text)) =
            t.place (indexFile .html out) ↔
          '.' ∉ m.name.toList ∨ t.place out = [] := by
  obtain ⟨folders, hfolders, hparent, hup, hlen⟩ := exists_folders hm out
  obtain ⟨n, hcrumb, hle, hdot⟩ := breadcrumb_upward hslash hlen
  have hhref : String.ofList (hrefIn (crumb out m).text) = upward n ++ "index.html" := by
    rw [hrefIn_crumb, hcrumb, String.toList_append, takeWhile_upward]
    exact String.toList_inj.1 (by simp)
  refine ⟨_, htmlModulePage Template.escapes p m (upward folders.length), hup, ?_, shows_crumb,
    ?_, fun t => ?_⟩
  · rw [moduleText, hup]
    rfl
  · rw [hhref, ← hdot]
    refine ⟨fun heq => ?_, fun heq => by rw [heq]⟩
    have hlens := congrArg (fun s : String => s.toList.length) heq
    simp only [String.toList_append, length_append, length_upward] at hlens
    omega
  · have hindex : t.place (indexFile .html out) = t.place out ++ partsOf "index.html" :=
      (isPage_indexFile .html out).place t
    rw [hhref, hparent, t.place_upward hfolders (by decide) (by decide), hindex,
      append_left_inj, ← hdot, length_append]
    constructor
    · intro heq
      have hlens := congrArg length heq
      rw [length_take, length_append] at hlens
      rcases Nat.eq_zero_or_pos (t.place out).length with hroot | hroot
      · exact .inr (length_eq_zero_iff.1 hroot)
      · exact .inl (by omega)
    · rintro (rfl | hroot)
      · rw [Nat.add_sub_cancel, take_left]
      · rw [hroot, length_nil, Nat.zero_add, Nat.sub_eq_zero_of_le hle, take_zero]

def nested : ModuleDoc := { path := "src/a/b.py", name := "a.b" }

theorem nested_breadcrumb_astray :
    ¬ Rooted nested ∧ '/' ∉ nested.name.toList ∧ ∃ up,
      stepsUp (moduleFile .html (.ofString "out") nested) (.ofString "out") = .ok up ∧
      String.ofList (hrefIn (crumb (.ofString "out") nested).text) ≠ up ++ "index.html" := by
  have hm : ¬ Rooted nested := by
    simp only [Rooted]
    decide
  obtain ⟨up, -, hup, -, -, hhref, -⟩ :=
    breadcrumb_leads_iff {} (.ofString "out") nested hm (by decide)
  exact ⟨hm, by decide, up, hup, fun heq => absurd (hhref.1 heq) (by decide)⟩

end Leads

end Page

end Docsmith
