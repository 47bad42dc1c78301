/-
The pages of a project as files.

`pages` lists what is written where; `writeSite_ok` says that writing a site writes these pages
one after the other. Where several pages have one place, the last one stays (`writePages_spec`),
and pages that are in place can be written again without any change (`InPlace.writePages`).
-/
import Docsmith.Page.Site
import Docsmith.Proofs.FileTree

namespace Docsmith

open Path FileTree Action List

/-! ## Paths of pages -/

namespace Page

theorem dot_not_mem_pagePath (m : ModuleDoc) : '.' ∉ m.pagePath.toList := by
  rw [ModuleDoc.pagePath, String.toList_map, mem_map]
  rintro ⟨c, -, hc⟩
  split at hc
  · exact absurd hc (by decide)
  next h => exact h hc

/-- The file of a page below a folder, or below the root: folders without a dot in their names,
and a name that ends in an extension. -/
structure IsPage (ext : String) (base : Path) (folders : List String)
    (last : String) (file : Path) : Prop where
  eq : file = ⟨base.root, base.parts ++ (folders ++ [last])⟩
  names : ∀ x ∈ folders, IsName x ∧ '.' ∉ x.toList
  isName : IsName last
  ends : ext.toList <:+ last.toList

theorem partsOf_page (f : Format) (m : ModuleDoc) : ∃ folders last,
    partsOf (m.pagePath ++ f.extension) = folders ++ [last] ∧
      (∀ x ∈ folders, IsName x ∧ '.' ∉ x.toList) ∧ IsName last ∧
      f.extension.toList <:+ last.toList := by
  have hslash : '/' ∉ f.extension.toList := by cases f <;> decide
  obtain ⟨front, piece, hcut, happ⟩ := Text.cut_append_plain m.pagePath.toList hslash
  have hmem : ∀ x ∈ front ++ [piece], ∀ c ∈ x, c ∈ m.pagePath.toList ∧ c ≠ '/' :=
    fun x hx => Text.mem_cut (hcut ▸ hx)
  have hdot : ∀ x ∈ front, '.' ∉ x := fun x hx hc =>
    dot_not_mem_pagePath m (hmem x (mem_append_left _ hx) '.' hc).1
  -- the last name is longer than any name that means something else
  have hlast : IsName (String.ofList (piece ++ f.extension.toList)) := by
    have hlen : 3 ≤ (piece ++ f.extension.toList).length := by
      rw [length_append]
      have : 3 ≤ f.extension.toList.length := by cases f <;> decide
      omega
    have hne : ∀ s : String, s.toList.length < 3 →
        String.ofList (piece ++ f.extension.toList) ≠ s := by
      rintro s hs rfl
      rw [String.toList_ofList] at hs
      omega
    refine ⟨hne _ (by decide), hne _ (by decide), hne _ (by decide), ?_⟩
    rw [String.toList_ofList, mem_append, not_or]
    exact ⟨fun hc => (hmem piece (by simp) '/' hc).2 rfl, hslash⟩
  refine ⟨((front.map String.ofList).filter fun part => part ≠ "" ∧ part ≠ "."),
    String.ofList (piece ++ f.extension.toList), ?_, fun x hx => ?_, hlast, ?_⟩
  · rw [partsOf, String.toList_append, happ, map_append, filter_append]
    congr 1
    exact filter_eq_self.2 fun x hx => by
      rw [map_singleton, mem_singleton] at hx
      exact decide_eq_true ⟨hx ▸ hlast.ne_empty, hx ▸ hlast.ne_dot⟩
  · simp only [mem_filter, mem_map, decide_eq_true_eq] at hx
    obtain ⟨⟨y, hy, rfl⟩, hne, hdot'⟩ := hx
    have hy' : '.' ∉ (String.ofList y).toList := by rw [String.toList_ofList]; exact hdot y hy
    refine ⟨⟨hne, hdot', ?_, ?_⟩, hy'⟩
    · intro he; rw [he] at hy'; exact hy' (by decide)
    · rw [String.toList_ofList]
      exact fun hc => (hmem y (mem_append_left _ hy) '/' hc).2 rfl
  · rw [String.toList_ofList]
    exact suffix_append _ _

section Rooted

variable {f : Format} {out : Path} {m : ModuleDoc}

/-- The path of a module's page begins at the root. -/
def Rooted (m : ModuleDoc) : Prop := m.name.toList.head? = some '.' ∨ m.name.toList.head? = some '/'

theorem isAbsolute_page (f : Format) (m : ModuleDoc) :
    (ofString (m.pagePath ++ f.extension)).isAbsolute = true ↔ Rooted m := by
  rw [isAbsolute_ofString, String.toList_append, ModuleDoc.pagePath, String.toList_map, Rooted]
  rcases m.name.toList with _ | ⟨c, cs⟩
  · cases f <;> decide
  · by_cases h : c = '.'
    · simp [h]
    · simp [h]

theorem moduleFile_of_rooted (h : Rooted m) :
    moduleFile f out m = ofString (m.pagePath ++ f.extension) :=
  if_pos ((isAbsolute_page f m).2 h)

theorem moduleFile_of_not_rooted (h : ¬ Rooted m) :
    moduleFile f out m = ⟨out.root, out.parts ++ partsOf (m.pagePath ++ f.extension)⟩ :=
  if_neg fun ha => h ((isAbsolute_page f m).1 ha)

theorem ne_dots_of_mem_page {x : String} (hx : x ∈ partsOf (m.pagePath ++ f.extension)) :
    x ≠ ".." := by
  obtain ⟨folders, last, hparts, hfolders, hlast, -⟩ := partsOf_page f m
  rw [hparts, mem_append, mem_singleton] at hx
  rcases hx with hx | rfl
  · exact (hfolders x hx).1.ne_dots
  · exact hlast.ne_dots

theorem place_moduleFile_of_rooted (h : Rooted m) (t : FileTree) :
    t.place (moduleFile f out m) = Path.partsOf (m.pagePath ++ f.extension) := by
  rw [moduleFile_of_rooted h, FileTree.place, Path.resolve, Path.join,
    if_pos ((isAbsolute_page f m).2 h)]
  exact climb_names fun x hx => ne_dots_of_mem_page hx

theorem place_moduleFile_of_not_rooted (h : ¬ Rooted m) (t : FileTree) :
    t.place (moduleFile f out m) = t.place out ++ partsOf (m.pagePath ++ f.extension) := by
  rw [moduleFile_of_not_rooted h, t.place_append out fun x hx => ne_dots_of_mem_page hx]

end Rooted

theorem isPage_moduleFile (f : Format) (out : Path) (m : ModuleDoc) :
    ∃ base folders last, (base = out ∨ base.isAbsolute = true ∧ base.parts = []) ∧
      IsPage f.extension base folders last (moduleFile f out m) := by
  obtain ⟨folders, last, hparts, hfolders, hlast, hends⟩ := partsOf_page f m
  by_cases h : Rooted m
  · refine ⟨⟨(ofString (m.pagePath ++ f.extension)).root, []⟩, folders, last,
      .inr ⟨(isAbsolute_page f m).2 h, rfl⟩, ?_, hfolders, hlast, hends⟩
    rw [moduleFile_of_rooted h]
    exact eq_of_root_parts rfl hparts
  · refine ⟨out, folders, last, .inl rfl, ?_, hfolders, hlast, hends⟩
    rw [moduleFile_of_not_rooted h, hparts]

variable {base file : Path} {ps : List (Path × String)}

theorem IsPage.isLeaf {ext : String} {folders : List String} {last : String}
    (h : IsPage ext base folders last file) (hbase : base.Proper) : IsLeaf file where
  proper part hpart := by
    simp only [h.eq, mem_append, mem_singleton] at hpart
    rcases hpart with hpart | hpart | rfl
    · exact hbase part hpart
    · exact .inr (h.names part hpart).1
    · exact .inr h.isName
  ends := ⟨last, by simp [h.eq], h.isName.ne_dots⟩

theorem proper_base {out : Path} (hout : out.Proper)
    (h : base = out ∨ base.isAbsolute = true ∧ base.parts = []) : base.Proper := by
  rcases h with rfl | ⟨-, hparts⟩
  · exact hout
  · intro part hpart
    rw [hparts] at hpart
    cases hpart

theorem isLeaf_moduleFile {out : Path} (hout : out.Proper) (f : Format) (m : ModuleDoc) :
    IsLeaf (moduleFile f out m) := by
  obtain ⟨base, folders, last, hbase, hfile⟩ := isPage_moduleFile f out m
  exact hfile.isLeaf (proper_base hout hbase)

theorem IsPage.place {ext : String} {folders : List String} {last : String}
    (h : IsPage ext base folders last file) (t : FileTree) :
    t.place file = t.place base ++ (folders ++ [last]) := by
  rw [h.eq, t.place_append base]
  simp only [mem_append, mem_singleton]
  rintro x (hx | rfl)
  · exact (h.names x hx).1.ne_dots
  · exact h.isName.ne_dots

theorem isPage_indexFile (f : Format) (out : Path) :
    IsPage f.extension out [] ("index" ++ f.extension) (indexFile f out) where
  eq := by cases f <;> rfl
  names := by simp
  isName := by cases f <;> exact ⟨by decide, by decide, by decide, by decide⟩
  ends := by rw [String.toList_append]; exact suffix_append _ _

/-! ## Writing pages -/

/-- A tree with a page written, and the folders on the way to it made. -/
def writePage (t : FileTree) (page : Path × String) : Except Fault FileTree := do
  let t ← t.makeFolders page.1.parent
  t.writeText page.1 page.2

/-- A tree with pages written one after the other. -/
def writePages (t : FileTree) (pages : List (Path × String)) : Except Fault FileTree :=
  pages.foldlM writePage t

/-- The page of a module: its file and its text. -/
def modulePage (f : Format) (p : ProjectDoc) (out : Path) (m : ModuleDoc) :
    Except Fault (Path × String) := do
  let text ← moduleText f p out m
  pure (moduleFile f out m, text)

/-- The pages of a project in the order in which they are written. -/
def pages (f : Format) (p : ProjectDoc) (out : Path) : Except Fault (List (Path × String)) := do
  let ps ← p.modules.mapM (modulePage f p out)
  pure ((indexFile f out, indexText f p) :: ps)

/-- The files of all pages of a project. -/
def sitePaths (f : Format) (p : ProjectDoc) (out : Path) : List Path :=
  indexFile f out :: p.modules.map (moduleFile f out)

theorem exec_makeFolders_ok {p : Path} {w w' : World} {u : Unit} :
    (makeFolders p).exec w = (.ok u, w') ↔
      ∃ t, w.files.makeFolders p = .ok t ∧ w' = { w with files := t } :=
  exec_changeFiles_ok

theorem exec_writeText_ok {p : Path} {s : String} {w w' : World} {u : Unit} :
    (writeText p s).exec w = (.ok u, w') ↔
      ∃ t, w.files.writeText p s = .ok t ∧ w' = { w with files := t } :=
  exec_changeFiles_ok

variable {f : Format} {p : ProjectDoc} {out : Path} {w w' : World}

theorem writeModule_ok {m : ModuleDoc} : (writeModule f p out m).exec w = (.ok file, w') ↔
      ∃ page t, modulePage f p out m = .ok page ∧ writePage w.files page = .ok t ∧
        w' = { w with files := t } ∧ file = page.1 := by
  simp only [writeModule, modulePage, writePage, exec_bind_ok, exec_makeFolders_ok,
    exec_writeText_ok, exec_ofExcept, exec_pure, Except.bind_ok_iff,
    Except.pure_ok_iff, Prod.mk.injEq, Except.ok.injEq]
  constructor
  · rintro ⟨-, w₁, ⟨t₁, h₁, rfl⟩, text, w₂, ⟨htext, rfl⟩, -, w₃, ⟨t₃, h₃, rfl⟩, rfl, rfl⟩
    exact ⟨_, t₃, ⟨text, htext, rfl⟩, ⟨t₁, h₁, h₃⟩, rfl, rfl⟩
  · rintro ⟨page, t, ⟨text, htext, rfl⟩, ⟨t₁, h₁, h₃⟩, rfl, rfl⟩
    exact ⟨(), _, ⟨t₁, h₁, rfl⟩, text, _, ⟨htext, rfl⟩, (), _, ⟨t, h₃, rfl⟩, rfl, rfl⟩

theorem writeModules_ok {ms : List ModuleDoc} {files : List Path} :
    (ms.mapM (writeModule f p out)).exec w = (.ok files, w') ↔
      ∃ ps t, ms.mapM (modulePage f p out) = .ok ps ∧ writePages w.files ps = .ok t ∧
        w' = { w with files := t } ∧ files = ps.map Prod.fst := by
  induction ms generalizing w w' files with
  | nil =>
    simp only [mapM_nil, exec_pure, Except.pure_ok_iff, Prod.mk.injEq, Except.ok.injEq]
    constructor
    · rintro ⟨rfl, rfl⟩
      exact ⟨[], w.files, rfl, rfl, rfl, rfl⟩
    · rintro ⟨ps, t, rfl, ht, rfl, rfl⟩
      obtain rfl : w.files = t := Except.ok.inj ht
      exact ⟨rfl, rfl⟩
  | cons m ms ih =>
    simp only [mapM_cons, exec_bind_ok, writeModule_ok, ih, exec_pure,
      Except.bind_ok_iff, Except.pure_ok_iff, Prod.mk.injEq, Except.ok.injEq]
    constructor
    · rintro ⟨_, _, ⟨page, t, hpage, ht, rfl, rfl⟩, _, _, ⟨ps, t', hps, ht', rfl, rfl⟩, rfl, rfl⟩
      refine ⟨page :: ps, t', ⟨page, hpage, ps, hps, rfl⟩, ?_, rfl, rfl⟩
      exact Except.bind_ok_iff.2 ⟨t, ht, ht'⟩
    · rintro ⟨_, t', ⟨page, hpage, ps, hps, rfl⟩, hwrite, rfl, rfl⟩
      obtain ⟨t, ht, ht'⟩ := Except.bind_ok_iff.1 hwrite
      exact ⟨_, _, ⟨page, t, hpage, ht, rfl, rfl⟩, _, _, ⟨ps, t', hps, ht', rfl, rfl⟩, rfl, rfl⟩

theorem parent_indexFile (f : Format) (out : Path) : (indexFile f out).parent = out := by
  rw [(isPage_indexFile f out).eq, nil_append, parent_append]

/-- **Writing a site** writes its pages one after the other. -/
theorem writeSite_ok {files : List Path} :
    (writeSite f p out).exec w = (.ok files, w') ↔
      ∃ ps t, pages f p out = .ok ps ∧ writePages w.files ps = .ok t ∧
        w' = { w with files := t } ∧ files = ps.map Prod.fst := by
  have hindex : ∀ t, writePage t (indexFile f out, indexText f p) =
      t.makeFolders out >>= fun t => t.writeText (indexFile f out) (indexText f p) := fun t => by
    rw [writePage, parent_indexFile]
  simp only [writeSite, pages, exec_bind_ok, exec_makeFolders_ok, exec_writeText_ok,
    writeModules_ok, exec_pure, Except.bind_ok_iff, Except.pure_ok_iff, Prod.mk.injEq,
    Except.ok.injEq]
  constructor
  · rintro ⟨-, _, ⟨t₁, h₁, rfl⟩, -, _, ⟨t₂, h₂, rfl⟩, _, _, ⟨ps, t, hps, ht, rfl, rfl⟩, rfl, rfl⟩
    refine ⟨_, t, ⟨ps, hps, rfl⟩, Except.bind_ok_iff.2 ⟨t₂, ?_, ht⟩, rfl, rfl⟩
    rw [hindex]
    exact Except.bind_ok_iff.2 ⟨t₁, h₁, h₂⟩
  · rintro ⟨_, t, ⟨ps, hps, rfl⟩, hwrite, rfl, rfl⟩
    obtain ⟨t₂, h₂, ht⟩ := Except.bind_ok_iff.1 hwrite
    rw [hindex] at h₂
    obtain ⟨t₁, h₁, h₂⟩ := Except.bind_ok_iff.1 h₂
    exact ⟨(), _, ⟨t₁, h₁, rfl⟩, (), _, ⟨t₂, h₂, rfl⟩, _, _, ⟨ps, t, hps, ht, rfl, rfl⟩, rfl, rfl⟩

/-- The file of an HTML page is written as one below the folder of the pages. -/
theorem exists_names_of_html {m : ModuleDoc} {text : String}
    (h : moduleText .html p out m = .ok text) :
    ∃ names, (∀ x ∈ names, x ≠ "..") ∧ moduleFile .html out m = ⟨out.root, out.parts ++ names⟩ := by
  by_cases hm : Rooted m
  · simp only [moduleText, stepsUp, relativeTo?, Except.bind_ok_iff] at h
    obtain ⟨up, hup, -⟩ := h
    rw [moduleFile_of_rooted hm] at hup ⊢
    split at hup
    next hrel =>
      split at hrel
      next hbelow =>
        simp only [Bool.and_eq_true, beq_iff_eq, List.isPrefixOf_iff_prefix, parent] at hbelow
        obtain ⟨names, hnames⟩ := hbelow.2.trans (List.dropLast_prefix _)
        refine ⟨names, fun x hx => ne_dots_of_mem_page (f := .html) (m := m) ?_,
          eq_of_root_parts hbelow.1 hnames.symm⟩
        have hparts : out.parts ++ names =
            partsOf (m.pagePath ++ Format.html.extension) := hnames
        rw [← hparts]
        exact mem_append_right _ hx
      next => cases hrel
    next => cases hup
  · exact ⟨_, fun x hx => ne_dots_of_mem_page hx, moduleFile_of_not_rooted hm⟩

/-- However writing a site ends, it has only written pages and made folders on the way to them. -/
theorem grows_writeSite {cwd : Path} {P Q : List String → Prop} (hout : out.Proper)
    (hP : ∀ t : FileTree, t.cwd = cwd → P (t.place (indexFile f out)) ∧
      ∀ m ∈ p.modules, P (t.place (moduleFile f out m)))
    (hQ : ∀ t : FileTree, t.cwd = cwd → ∀ loc, (t.OnWay out loc → Q loc) ∧
      ∀ m ∈ p.modules, t.OnWay (moduleFile f out m).parent loc → Q loc) :
    Grows cwd P Q (writeSite f p out) := by
  refine .bind (.makeFolders hout fun t ht loc => (hQ t ht loc).1) fun _ =>
    .bind (.writeText ((isPage_indexFile f out).isLeaf hout).proper (fun t ht => (hP t ht).1) _)
    fun _ => .bind (.mapM fun m hm => ?_) fun _ => .pure _
  have hleaf := isLeaf_moduleFile hout f m
  exact .bind (.makeFolders hleaf.proper_parent fun t ht loc => (hQ t ht loc).2 m hm) fun _ =>
    .bind (.ofExcept _) fun _ =>
    .bind (.writeText hleaf.proper (fun t ht => (hP t ht).2 m hm) _) fun _ => .pure _

theorem map_fst_pages (h : pages f p out = .ok ps) : ps.map Prod.fst = sitePaths f p out := by
  simp only [pages, Except.bind_ok_iff, Except.pure_ok_iff] at h
  obtain ⟨ms, hms, rfl⟩ := h
  rw [sitePaths, map_cons]
  congr 1
  generalize p.modules = modules at hms
  induction modules generalizing ms with
  | nil => rw [← Except.pure_ok_iff.1 hms]; rfl
  | cons m modules ih =>
    simp only [mapM_cons, modulePage, Except.bind_ok_iff, Except.pure_ok_iff] at hms
    obtain ⟨_, ⟨text, -, rfl⟩, ms', hms', rfl⟩ := hms
    rw [map_cons, map_cons, ih ms' hms']

/-- Every page of a project has the extension of its format; it lies below the folder of the pages,
unless its path is absolute. -/
theorem isPage_of_mem (h : pages f p out = .ok ps) {page : Path × String} (hpage : page ∈ ps) :
    ∃ base folders last, (base = out ∨ base.isAbsolute = true ∧ base.parts = []) ∧
      IsPage f.extension base folders last page.1 := by
  simp only [pages, Except.bind_ok_iff, Except.pure_ok_iff] at h
  obtain ⟨ms, hms, rfl⟩ := h
  rcases mem_cons.1 hpage with rfl | hpage
  · exact ⟨out, [], _, .inl rfl, isPage_indexFile f out⟩
  · obtain ⟨m, -, hm⟩ := Except.mem_of_mapM hms hpage
    simp only [modulePage, Except.bind_ok_iff, Except.pure_ok_iff] at hm
    obtain ⟨text, -, rfl⟩ := hm
    exact isPage_moduleFile f out m

theorem isLeaf_of_mem (hout : out.Proper) (h : pages f p out = .ok ps) {page : Path × String}
    (hpage : page ∈ ps) : IsLeaf page.1 := by
  obtain ⟨base, folders, last, hbase, hfile⟩ := isPage_of_mem h hpage
  exact hfile.isLeaf (proper_base hout hbase)

/-! ## Pages in place -/

/-- The text that pages written one after the other leave at a place. -/
def lastText (t : FileTree) : List (Path × String) → List String → Option String
  | [], _ => none
  | page :: rest, loc =>
    (lastText t rest loc).or (if t.place page.1 = loc then some page.2 else none)

/-- Pages that are there, each in its folder; of several with one place it is the last one. -/
structure InPlace (t : FileTree) (ps : List (Path × String)) : Prop where
  folder : ∀ page ∈ ps, t.isFolder page.1.parent = true
  text : ∀ {loc s}, lastText t ps loc = some s → t.at? loc = some (.file s.toUTF8.toList)

section InPlace

variable {t t' : FileTree} {page : Path × String} {ps : List (Path × String)}

theorem lastText_congr (h : t'.cwd = t.cwd) (ps : List (Path × String)) (loc : List String) :
    lastText t' ps loc = lastText t ps loc := by
  induction ps with
  | nil => rfl
  | cons page ps ih =>
    have hplace : t'.place page.1 = t.place page.1 := by simp only [place, h]
    rw [lastText, lastText, ih, hplace]

theorem lastText_eq_none {loc : List String} :
    lastText t ps loc = none ↔ ∀ page ∈ ps, t.place page.1 ≠ loc := by
  induction ps with
  | nil => simp [lastText]
  | cons page ps ih => simp [lastText, ih, and_comm]

theorem exists_lastText (hpage : page ∈ ps) : ∃ s, lastText t ps (t.place page.1) = some s := by
  cases h : lastText t ps (t.place page.1) with
  | none => exact absurd rfl (lastText_eq_none.1 h page hpage)
  | some s => exact ⟨s, rfl⟩

theorem InPlace.find? (h : InPlace t ps) (hpage : page ∈ ps) (hleaf : IsLeaf page.1)
    {s : String}
    (hs : lastText t ps (t.place page.1) = some s) :
    t.find? page.1 = some (.file s.toUTF8.toList) := by
  refine find?_eq_some.2 ⟨?_, h.text hs⟩
  rw [hleaf.gap?_parent]
  exact (isFolder_iff.1 (h.folder page hpage)).1

theorem writePage_spec (ht : t.WellFormed) (hpage : IsLeaf page.1)
    (h : writePage t page = .ok t') :
    t'.WellFormed ∧ Grown (· = t.place page.1) (t.MadeFor page.1.parent) t t' ∧
      t'.isFolder page.1.parent = true ∧
      t'.at? (t.place page.1) = some (.file page.2.toUTF8.toList) := by
  obtain ⟨u, hu, h⟩ := Except.bind_ok_iff.1 h
  obtain ⟨hgu, hfolder, hwu⟩ := makeFolders_spec ht hpage.proper_parent hu
  have hplace : u.place page.1 = t.place page.1 := hgu.place_eq _
  have hgt : Grown (· = t.place page.1) (t.MadeFor page.1.parent) u t' :=
    grown_of_writeBytes hwu hplace h
  obtain ⟨rfl, -, hn, -⟩ := writeBytes_ok hwu h
  refine ⟨hwu.writeBytes hpage.proper h, (hgu.mono (fun _ => False.elim) fun _ hq => hq).trans hgt,
    hgt.isFolder hfolder, ?_⟩
  rw [← hplace]
  exact at?_put_self u _ (ne_nil_of_at? hn)

/-- **Pages written one after the other** are in place; nothing else is written. -/
theorem writePages_spec (ht : t.WellFormed) (hps : ∀ page ∈ ps, IsLeaf page.1)
    (h : writePages t ps = .ok t') :
    t'.WellFormed ∧ Grown (fun loc => ∃ page ∈ ps, loc = t.place page.1)
      (fun loc => ∃ page ∈ ps, t.MadeFor page.1.parent loc) t t' ∧ InPlace t' ps := by
  induction ps generalizing t with
  | nil =>
    obtain rfl : t = t' := Except.ok.inj h
    exact ⟨ht, .refl _ _ _, by simp, fun h => by simp [lastText] at h⟩
  | cons page ps ih =>
    obtain ⟨u, hu, h⟩ := Except.bind_ok_iff.1 h
    obtain ⟨hwu, hgu, hfolder, htext⟩ := writePage_spec ht (hps page mem_cons_self) hu
    obtain ⟨hw, hg, hin⟩ := ih hwu (fun q hq => hps q (mem_cons_of_mem _ hq)) h
    have hcwd : t'.cwd = t.cwd := hg.cwd.trans hgu.cwd
    refine ⟨hw, .trans (hgu.mono ?_ ?_) (hg.mono ?_ ?_), ?_, ?_⟩
    · rintro loc rfl
      exact ⟨page, mem_cons_self, rfl⟩
    · exact fun loc hloc => ⟨page, mem_cons_self, hloc⟩
    · rintro loc ⟨q, hq, rfl⟩
      exact ⟨q, mem_cons_of_mem _ hq, hgu.place_eq _⟩
    · rintro loc ⟨q, hq, hmade⟩
      exact ⟨q, mem_cons_of_mem _ hq, hgu.madeFor hmade⟩
    · intro q hq
      rcases mem_cons.1 hq with rfl | hq
      · exact hg.isFolder hfolder
      · exact hin.folder q hq
    · intro loc s hs
      rw [lastText_congr hcwd, lastText] at hs
      cases hrest : lastText t ps loc with
      | some s' =>
        rw [hrest, Option.some_or] at hs
        exact hin.text (by rw [lastText_congr hcwd, hrest, hs])
      | none =>
        rw [hrest, Option.none_or, Option.ite_none_right_eq_some, Option.some.injEq] at hs
        obtain ⟨rfl, rfl⟩ := hs
        refine hg.kept ?_ htext
        rintro ⟨q, hq, hloc⟩
        exact lastText_eq_none.1 hrest q hq ((hgu.place_eq _).symm.trans hloc.symm)

theorem writePage_eq (hpage : IsLeaf page.1) (hfolder : t.isFolder page.1.parent = true)
    (hplace : t.at? (t.place page.1) ≠ some .folder) :
    writePage t page = .ok (t.put (t.place page.1) (.file page.2.toUTF8.toList)) := by
  have hf := isFolder_iff.1 hfolder
  rw [writePage, makeFolders_eq hfolder]
  exact writeBytes_eq _ (hpage.gap?_parent t ▸ hf.1) hplace (hpage.dropLast_place t ▸ hf.2)

theorem writePages_eq (ht : t.WellFormed) (hps : ∀ page ∈ ps, IsLeaf page.1)
    (hfolder : ∀ page ∈ ps, t.isFolder page.1.parent = true)
    (hplace : ∀ page ∈ ps, t.at? (t.place page.1) ≠ some .folder) :
    ∃ t', writePages t ps = .ok t' ∧ ∀ loc, t'.at? loc =
      match lastText t ps loc with
      | some s => some (.file s.toUTF8.toList)
      | none => t.at? loc := by
  induction ps generalizing t with
  | nil => exact ⟨t, rfl, fun _ => rfl⟩
  | cons page ps ih =>
    have hpage := hps page mem_cons_self
    have hn := hplace page mem_cons_self
    have hwrite := writePage_eq hpage (hfolder page mem_cons_self) hn
    obtain ⟨hwu, hgu, -, -⟩ := writePage_spec ht hpage hwrite
    have hloc := ne_nil_of_at? hn
    generalize hu : t.put (t.place page.1) (.file page.2.toUTF8.toList) = u at *
    have hat : ∀ loc, u.at? loc = if loc = t.place page.1 then some (.file page.2.toUTF8.toList)
        else t.at? loc := fun loc => by rw [← hu, at?_put t _ hloc]
    obtain ⟨t', ht', hat'⟩ := ih hwu (fun q hq => hps q (mem_cons_of_mem _ hq))
      (fun q hq => hgu.isFolder (hfolder q (mem_cons_of_mem _ hq))) (fun q hq => by
        rw [hgu.place_eq, hat]
        split
        · simp
        · exact hplace q (mem_cons_of_mem _ hq))
    refine ⟨t', Except.bind_ok_iff.2 ⟨u, hwrite, ht'⟩, fun loc => ?_⟩
    rw [hat', lastText_congr hgu.cwd, lastText]
    cases lastText t ps loc with
    | some s => rfl
    | none =>
      rw [Option.none_or, hat]
      by_cases hl : t.place page.1 = loc
      · rw [if_pos hl.symm, if_pos hl]
      · rw [if_neg (Ne.symm hl), if_neg hl]

/-- **Pages in place can be written again**, and nothing changes. -/
theorem InPlace.writePages (h : InPlace t ps) (ht : t.WellFormed)
    (hps : ∀ page ∈ ps, IsLeaf page.1) :
    ∃ t', writePages t ps = .ok t' ∧ ∀ loc, t'.at? loc = t.at? loc := by
  have hplace : ∀ page ∈ ps, t.at? (t.place page.1) ≠ some .folder := by
    intro page hpage hf
    obtain ⟨s, hs⟩ := exists_lastText (t := t) hpage
    rw [h.text hs] at hf
    cases hf
  obtain ⟨t', ht', hat⟩ := writePages_eq ht hps h.folder hplace
  refine ⟨t', ht', fun loc => ?_⟩
  rw [hat]
  cases hlast : lastText t ps loc with
  | some s => rw [h.text hlast]
  | none => rfl

/-- Pages stay in place as long as folders do and their own places are left alone. -/
theorem InPlace.kept (h : InPlace t ps) (hcwd : t'.cwd = t.cwd)
    (hfolder : ∀ loc, t.at? loc = some .folder → t'.at? loc = some .folder)
    (hplace : ∀ page ∈ ps, ∀ bytes, t.at? (t.place page.1) = some (.file bytes) →
      t'.at? (t.place page.1) = some (.file bytes)) : InPlace t' ps where
  folder page hpage := isFolder_kept hcwd hfolder (h.folder page hpage)
  text {loc s} hs := by
    rw [lastText_congr hcwd] at hs
    have hmem : ¬ ∀ page ∈ ps, t.place page.1 ≠ loc := fun hn => by
      rw [lastText_eq_none.2 hn] at hs
      cases hs
    simp only [Classical.not_forall, ne_eq, Classical.not_not] at hmem
    obtain ⟨page, hpage, rfl⟩ := hmem
    exact hplace page hpage _ (h.text hs)

end InPlace

end Page

end Docsmith
