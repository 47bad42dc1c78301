/-
Pages that overwrite each other. Writing a site keeps every page (`AllKept`) exactly if no two of
its files have one place: where two have, one text is gone, since two pages of one place never
have the same text (`name_eq_of_markdownModule_eq`, `markdownIndex_ne_module`). A source named
`index` is enough for that.
-/
import Docsmith.Project
import Docsmith.Proofs.Site
import Docsmith.Proofs.Utf8

namespace Docsmith.Page

open List

/-! ## Names behind paths -/

/-- A character that is no separator, in the name of a module or in the path of a page. -/
def isLetter (c : Char) : Bool := c ≠ '.' && c ≠ '/'

theorem letters_cut (cs : List Char) :
    (Text.cut '/' cs).flatten.filter isLetter = cs.filter isLetter := by
  rw [Text.cut_eq_splitOn]
  induction cs with
  | nil => rfl
  | cons c cs ih =>
    rw [splitOn_cons_eq_if_modifyHead]
    split
    next h =>
      obtain rfl : c = '/' := by simpa using h
      exact ih
    next =>
      rcases hs : cs.splitOn '/' with _ | ⟨first, rest⟩
      · exact absurd hs (splitOn_ne_nil '/' cs)
      · rw [hs] at ih
        simp only [modifyHead_cons, flatten_cons, cons_append,
          filter_cons] at ih ⊢
        rw [ih]

theorem letters_partsOf (s : String) :
    ((Path.partsOf s).flatMap String.toList).filter isLetter = s.toList.filter isLetter := by
  rw [← letters_cut s.toList, Path.partsOf]
  induction Text.cut '/' s.toList with
  | nil => rfl
  | cons piece pieces ih =>
    rw [map_cons, filter_cons, flatten_cons, filter_append, ← ih]
    split
    · rw [flatMap_cons, filter_append, String.toList_ofList]
    next h =>
      -- a piece that is dropped has no letters
      have hpiece : piece = [] ∨ piece = ['.'] := by
        rw [decide_eq_true_eq, Classical.not_and_iff_not_or_not, Classical.not_not,
          Classical.not_not] at h
        exact h.imp (fun he => String.ofList_inj.1 he) fun he => String.ofList_inj.1 he
      rcases hpiece with rfl | rfl <;> rfl

theorem letters_pagePath (m : ModuleDoc) :
    m.pagePath.toList.filter isLetter = m.name.toList.filter isLetter := by
  rw [ModuleDoc.pagePath, String.toList_map]
  induction m.name.toList with
  | nil => rfl
  | cons c cs ih =>
    rw [map_cons, filter_cons, filter_cons, ih]
    by_cases h : c = '.'
    · simp [h, isLetter]
    · simp only [h, if_false]

theorem letters_eq_of_partsOf_eq {f : Format} {m n : ModuleDoc}
    (h : Path.partsOf (m.pagePath ++ f.extension) = Path.partsOf (n.pagePath ++ f.extension)) :
    m.name.toList.filter isLetter = n.name.toList.filter isLetter := by
  have hl := congrArg (fun parts : List String => (parts.flatMap String.toList).filter isLetter) h
  simp only [letters_partsOf, String.toList_append, filter_append, letters_pagePath] at hl
  exact append_cancel_right hl

theorem eq_of_letters_eq {n₁ n₂ r₁ r₂ : List Char} (h : n₁ ++ '`' :: r₁ = n₂ ++ '`' :: r₂)
    (hl : n₁.filter isLetter = n₂.filter isLetter) : n₁ = n₂ := by
  have key : ∀ {n s r r' : List Char}, n.filter isLetter = (n ++ s).filter isLetter →
      '`' :: r = s ++ '`' :: r' → s = [] := by
    intro n s r r' hl he
    rw [filter_append, self_eq_append_right, filter_eq_nil_iff] at hl
    rcases s with _ | ⟨c, s⟩
    · rfl
    · obtain rfl := (cons.inj he).1
      exact absurd rfl (hl _ mem_cons_self)
  rcases append_eq_append_iff.1 h with ⟨s, rfl, he⟩ | ⟨s, rfl, he⟩
  · rw [key hl he, append_nil]
  · rw [key hl.symm he, append_nil]

variable {f : Format} {p : ProjectDoc} {out : Path} {m n : ModuleDoc}

/-! ## Texts of pages -/

theorem markdownModule_starts (m : ModuleDoc) : ∃ rest,
    (markdownModule m).toList = '#' :: ' ' :: '`' :: (m.name.toList ++ '`' :: rest) := by
  delta markdownModule
  simp only [String.toList_append, append_assoc]
  exact ⟨_, rfl⟩

theorem suffix_section {α : Type} {g : α → String} {cs before : List Char} (heading : String)
    (hg : ∀ x, cs <:+ (g x).toList) (xs : List α) (hbefore : cs <:+ before) :
    cs <:+ before ++ (on (!xs.isEmpty) (heading ++ String.join (xs.map g))).toList := by
  by_cases hxs : xs = []
  · rw [hxs]
    simpa [on] using hbefore
  · have hjoin : cs <:+ (String.join (xs.map g)).toList := by
      rw [← dropLast_concat_getLast hxs, map_append, String.join_append,
        String.toList_append]
      exact suffix_append_of_suffix (by simpa [String.toList_join] using hg _)
    rw [on, if_pos (by simpa using hxs), String.toList_append]
    exact suffix_append_of_suffix (suffix_append_of_suffix hjoin)

/-- The page of a module has an empty line more at its end than an index. -/
theorem markdownModule_ends (m : ModuleDoc) :
    "\n\n\n".toList ++ markdownFooter.toList <:+ (markdownModule m).toList := by
  have htype : ∀ t, "\n".toList <:+ (markdownType t).toList := fun t => by
    delta markdownType
    rw [String.toList_append]
    exact suffix_append_of_suffix (by decide)
  have hfunction : ∀ f, "\n\n".toList <:+ (markdownFunction f).toList := fun f => by
    delta markdownFunction
    rw [String.toList_append]
    exact suffix_append_of_suffix (by decide)
  delta markdownModule
  simp only [String.toList_append]
  rw [suffix_append_self_iff]
  show "\n\n".toList ++ "\n".toList <:+ _
  rw [suffix_append_self_iff]
  refine suffix_section _ hfunction m.functions ?_
  show "\n".toList ++ "\n".toList <:+ _
  rw [suffix_append_self_iff]
  exact suffix_section _ htype m.types (suffix_append_of_suffix (by decide))

theorem markdownIndex_ends (p : ProjectDoc) :
    "-\n\n".toList ++ markdownFooter.toList <:+ (markdownIndex p).toList := by
  delta markdownIndex
  simp only [String.toList_append]
  rw [suffix_append_self_iff]
  exact suffix_append_of_suffix (by decide)

theorem markdownIndex_ne_module (p : ProjectDoc) (m : ModuleDoc) :
    markdownIndex p ≠ markdownModule m := by
  intro h
  have hends := markdownIndex_ends p
  rw [h] at hends
  rcases suffix_or_suffix_of_suffix hends (markdownModule_ends m) with hs | hs
  · exact absurd (suffix_append_self_iff.1 hs) (by decide)
  · exact absurd (suffix_append_self_iff.1 hs) (by decide)

theorem rooted_iff_head (m : ModuleDoc) (rest : List Char) :
    Rooted m ↔ (m.name.toList ++ '`' :: rest).head? = some '.' ∨
      (m.name.toList ++ '`' :: rest).head? = some '/' := by
  rw [Rooted]
  cases m.name.toList with
  | nil => simp
  | cons c cs => simp

variable {t : FileTree}

/-- Modules whose pages have one place and one text have one name. -/
theorem name_eq_of_markdownModule_eq
    (hplace : t.place (moduleFile .markdown out m) = t.place (moduleFile .markdown out n))
    (h : markdownModule m = markdownModule n) : m.name = n.name := by
  obtain ⟨r₁, h₁⟩ := markdownModule_starts m
  obtain ⟨r₂, h₂⟩ := markdownModule_starts n
  rw [h, h₂] at h₁
  simp only [cons.injEq, true_and] at h₁
  -- the texts tell whether the paths begin at the root
  have hrooted : Rooted m ↔ Rooted n := by rw [rooted_iff_head m r₁, rooted_iff_head n r₂, h₁]
  have hparts : Path.partsOf (m.pagePath ++ Format.markdown.extension) =
      Path.partsOf (n.pagePath ++ Format.markdown.extension) := by
    by_cases hm : Rooted m
    · rw [place_moduleFile_of_rooted hm, place_moduleFile_of_rooted (hrooted.1 hm)] at hplace
      exact hplace
    · rw [place_moduleFile_of_not_rooted hm,
        place_moduleFile_of_not_rooted fun hn => hm (hrooted.2 hn)] at hplace
      exact append_cancel_left hplace
  exact String.toList_inj.1 (eq_of_letters_eq h₁.symm (letters_eq_of_partsOf_eq hparts))

/-! ## Pages of one place -/

/-- Every page is there: the files are different ones, and each holds its own text. -/
def AllKept (f : Format) (p : ProjectDoc) (out : Path) (files : List Path) (t : FileTree) : Prop :=
  files.Nodup ∧ t.find? (indexFile f out) = some (.file (indexText f p).toUTF8.toList) ∧
    ∀ m ∈ p.modules, ∃ text, moduleText f p out m = .ok text ∧
      t.find? (moduleFile f out m) = some (.file text.toUTF8.toList)

theorem text_eq_of_place_eq {q q' : Path} {s s' : String}
    (hq : t.find? q = some (.file s.toUTF8.toList))
    (hq' : t.find? q' = some (.file s'.toUTF8.toList)) (hplace : t.place q = t.place q') :
    s = s' := by
  have ha := (FileTree.find?_eq_some.1 hq).2
  rw [hplace, (FileTree.find?_eq_some.1 hq').2] at ha
  exact (Text.Utf8.toUTF8_toList_inj (Entry.file.inj (Option.some.inj ha))).symm

theorem AllKept.eq_of_place_eq {files : List Path} (h : AllKept f p out files t) {q q' : Path}
    (hq : q ∈ sitePaths f p out) (hq' : q' ∈ sitePaths f p out) (hplace : t.place q = t.place q') :
    q = q' := by
  cases f with
  | html =>
    have hnames : ∀ q ∈ sitePaths .html p out, ∃ names, (∀ x ∈ names, x ≠ "..") ∧
        q = ⟨out.root, out.parts ++ names⟩ := by
      intro q hq
      rcases mem_cons.1 hq with rfl | hq
      · exact ⟨["index.html"], by decide, rfl⟩
      · obtain ⟨m, hm, rfl⟩ := mem_map.1 hq
        obtain ⟨text, htext, -⟩ := h.2.2 m hm
        exact exists_names_of_html htext
    obtain ⟨names, hnames₁, rfl⟩ := hnames q hq
    obtain ⟨names', hnames₂, rfl⟩ := hnames q' hq'
    rw [t.place_append out hnames₁, t.place_append out hnames₂] at hplace
    rw [append_cancel_left hplace]
  | markdown =>
    have hmodule : ∀ m ∈ p.modules, t.find? (moduleFile .markdown out m) =
        some (.file (markdownModule m).toUTF8.toList) := by
      intro m hm
      obtain ⟨text, htext, hfile⟩ := h.2.2 m hm
      rwa [← Except.ok.inj htext] at hfile
    rcases mem_cons.1 hq with rfl | hq
    · rcases mem_cons.1 hq' with rfl | hq'
      · rfl
      · obtain ⟨m, hm, rfl⟩ := mem_map.1 hq'
        exact absurd (text_eq_of_place_eq h.2.1 (hmodule m hm) hplace) (markdownIndex_ne_module p m)
    · obtain ⟨m, hm, rfl⟩ := mem_map.1 hq
      rcases mem_cons.1 hq' with rfl | hq'
      · exact absurd (text_eq_of_place_eq h.2.1 (hmodule m hm) hplace.symm)
          (markdownIndex_ne_module p m)
      · obtain ⟨n, hn, rfl⟩ := mem_map.1 hq'
        have hname := name_eq_of_markdownModule_eq hplace
          (text_eq_of_place_eq (hmodule m hm) (hmodule n hn) hplace)
        rw [moduleFile, moduleFile, ModuleDoc.pagePath, ModuleDoc.pagePath, hname]

theorem lastText_of_nodup {ps : List (Path × String)}
    (h : (ps.map fun page => t.place page.1).Nodup) {page : Path × String} (hpage : page ∈ ps) :
    lastText t ps (t.place page.1) = some page.2 := by
  induction ps with
  | nil => cases hpage
  | cons q ps ih =>
    rw [map_cons, nodup_cons] at h
    rw [lastText]
    rcases mem_cons.1 hpage with rfl | hpage
    · have hnone : lastText t ps (t.place page.1) = none :=
        lastText_eq_none.2 fun q hq he => h.1 (he ▸ mem_map_of_mem hq)
      rw [hnone, if_pos rfl, Option.none_or]
    · rw [ih h.2 hpage, Option.some_or]

/-- **No page is lost exactly if no two pages have one place.** -/
theorem allKept_iff {files : List Path} {w w' : World} (hout : out.Proper) (hw : w.files.WellFormed)
    (h : (writeSite f p out).exec w = (.ok files, w')) :
    AllKept f p out files w'.files ↔ ((sitePaths f p out).map w.files.place).Nodup := by
  obtain ⟨ps, t, hps, ht, rfl, rfl⟩ := writeSite_ok.1 h
  obtain ⟨-, hg, hin⟩ := writePages_spec hw (fun page => isLeaf_of_mem hout hps) ht
  have hpaths := map_fst_pages hps
  constructor
  · intro hkept
    have hnodup := hkept.1
    rw [hpaths] at hnodup
    refine pairwise_map.2 (hnodup.imp_of_mem fun hq hq' hne hplace => hne ?_)
    exact hkept.eq_of_place_eq hq hq' (by rw [hg.place_eq, hg.place_eq]; exact hplace)
  · intro hnodup
    -- each page is the last one at its place
    have hfile : ∀ page ∈ ps, t.find? page.1 = some (.file page.2.toUTF8.toList) := by
      intro page hpage
      refine hin.find? hpage (isLeaf_of_mem hout hps hpage) (lastText_of_nodup ?_ hpage)
      simp only [hg.place_eq]
      rwa [← hpaths, map_map] at hnodup
    simp only [pages, Except.bind_ok_iff, Except.pure_ok_iff] at hps
    obtain ⟨ms, hms, rfl⟩ := hps
    refine ⟨?_, hfile (indexFile f out, indexText f p) mem_cons_self, fun m hm => ?_⟩
    · rw [hpaths]
      exact (pairwise_map.1 hnodup).imp fun hne he => hne (congrArg _ he)
    · obtain ⟨page, hpage, hm⟩ := Except.exists_of_mapM hms hm
      simp only [modulePage, Except.bind_ok_iff, Except.pure_ok_iff] at hm
      obtain ⟨text, htext, rfl⟩ := hm
      exact ⟨text, htext, hfile (moduleFile f out m, text) (mem_cons_of_mem _ hpage)⟩

/-- A source that takes the file of the index. -/
def shadowed : World where
  files := ⟨.ofString "/w", [(["w"], .folder), (["w", "src"], .folder),
    (["w", "src", "index.py"], .file "\"text\"\n".toUTF8.toList)]⟩

theorem index_page_lost : ∃ p files w',
    Project.ofAll false shadowed.files (.ofString "src") [] = .ok p ∧
      (writeSite .markdown p (.ofString "out")).exec shadowed = (.ok files, w') ∧
      ¬ AllKept .markdown p (.ofString "out") files w'.files := by
  have hfacts : (match Project.ofAll false shadowed.files (.ofString "src") [] with
      | .ok p => ((writeSite .markdown p (.ofString "out")).exec shadowed).1.isOk &&
        !decide ((sitePaths .markdown p (.ofString "out")).map shadowed.files.place).Nodup
      | .error _ => false) = true := by decide +kernel
  cases hp : Project.ofAll false shadowed.files (.ofString "src") [] with
  | error e => simp [hp] at hfacts
  | ok p =>
    simp only [hp, Bool.and_eq_true, Bool.not_eq_true', decide_eq_false_iff_not] at hfacts
    rcases he : (writeSite .markdown p (.ofString "out")).exec shadowed with ⟨_ | files, w'⟩
    · simp [he, Except.isOk, Except.toBool] at hfacts
    · exact ⟨p, files, w', rfl, he, fun hkept => hfacts.2
        ((allKept_iff (Path.proper_ofString _) (by decide +kernel) he).1 hkept)⟩

end Docsmith.Page
