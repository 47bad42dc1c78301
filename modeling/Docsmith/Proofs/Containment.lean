/-
Where a site is written. It stays in the folder of the pages (`Contained`), whatever folder that
is and however writing ends, exactly if no page has a path that begins at the root (`Rooted`), as
the page of a hidden source has. For such a page there is always a tree in which everything can be
written (`exists_ready`), so that the page is written elsewhere, or refused
(`not_contained_html`).
-/
import Docsmith.Project
import Docsmith.Proofs.Site

namespace Docsmith

open Action FileTree List

/-! ## Failures -/

namespace Action

variable {α β : Type} {bad : Fault → Prop}

/-- An action that never fails in a certain way. -/
def Avoids (bad : Fault → Prop) (a : Action α) : Prop := ∀ w e, (a.exec w).1 = .error e → ¬ bad e

namespace Avoids

theorem pure (x : α) : Avoids bad (Pure.pure x : Action α) := fun _ _ he => nomatch he

theorem ofExcept {r : Except Fault α} (h : ∀ e, r = .error e → ¬ bad e) :
    Avoids bad (ofExcept r) :=
  fun w e he => h e (by rwa [exec_ofExcept] at he)

theorem changeFiles {f : FileTree → Except Fault FileTree} (h : ∀ t e, f t = .error e → ¬ bad e) :
    Avoids bad (changeFiles f) := by
  intro w e he
  rw [exec_changeFiles] at he
  split at he
  next => cases he
  next e' hf =>
    cases he
    exact h _ _ hf

theorem bind {a : Action α} {f : α → Action β} (ha : Avoids bad a) (hf : ∀ x, Avoids bad (f x)) :
    Avoids bad (a >>= f) := by
  intro w e he
  rw [exec_bind] at he
  rcases hw : a.exec w with ⟨e' | x, w₁⟩
  · rw [hw] at he
    cases he
    exact ha w e (by rw [hw])
  · rw [hw] at he
    exact hf x w₁ e he

theorem mapM {f : α → Action β} {xs : List α} (h : ∀ x ∈ xs, Avoids bad (f x)) :
    Avoids bad (xs.mapM f) := by
  induction xs with
  | nil => exact pure _
  | cons x xs ih =>
    rw [mapM_cons]
    exact bind (h x mem_cons_self) fun y =>
      bind (ih fun z hz => h z (mem_cons_of_mem _ hz)) fun ys => pure _

end Avoids

end Action

/-! ## Trees of folders -/

namespace FileTree

open Path (IsName)

/-- A tree of nothing but folders, their names without dots, with the root as working directory. -/
structure Plain (t : FileTree) : Prop where
  wellFormed : t.WellFormed
  cwd : t.cwd = ⟨"/", []⟩
  folder : ∀ {loc e}, t.at? loc = some e → e = .folder ∧ ∀ x ∈ loc, '.' ∉ x.toList

variable {t : FileTree}

theorem plain_empty : Plain ⟨⟨"/", []⟩, []⟩ where
  wellFormed := by decide
  cwd := rfl
  folder {loc e} h := by
    cases loc with
    | nil => exact ⟨(Option.some.inj h).symm, by simp⟩
    | cons x loc => cases h

theorem Plain.extend (h : Plain t) (done rest : List String) (hdone : t.at? done = some .folder)
    (hnames : ∀ x ∈ done ++ rest, IsName x ∧ '.' ∉ x.toList) :
    ∃ t', Plain t' ∧ t'.at? (done ++ rest) = some .folder ∧
      ∀ loc, t.at? loc = some .folder → t'.at? loc = some .folder := by
  induction rest generalizing t done with
  | nil => exact ⟨t, h, by rw [append_nil]; exact hdone, fun _ hl => hl⟩
  | cons x rest ih =>
    rw [append_cons] at hnames ⊢
    cases hx : t.at? (done ++ [x]) with
    | some e =>
      rw [(h.folder hx).1] at hx
      exact ih h (done ++ [x]) hx hnames
    | none =>
      have hne : done ++ [x] ≠ [] := by simp
      have hput := at?_put t .folder hne
      have hplain : Plain (t.put (done ++ [x]) .folder) := by
        refine ⟨h.wellFormed.put hne (fun y hy => (hnames y (mem_append_left _ hy)).1) ?_
          fun _ => rfl, by rw [put_cwd]; exact h.cwd, fun {loc e} he => ?_⟩
        · rw [dropLast_concat]
          exact hdone
        · rw [hput] at he
          split at he
          next hl =>
            refine ⟨(Option.some.inj he).symm, fun y hy => ?_⟩
            exact (hnames y (mem_append_left _ (hl ▸ hy))).2
          next => exact h.folder he
      obtain ⟨t', ht', hloc, hkeep⟩ := ih hplain (done ++ [x]) (by rw [hput, if_pos rfl]) hnames
      refine ⟨t', ht', hloc, fun loc hl => hkeep loc ?_⟩
      rw [hput]
      split
      · rfl
      · exact hl

theorem exists_plain (locs : List (List String))
    (h : ∀ loc ∈ locs, ∀ x ∈ loc, IsName x ∧ '.' ∉ x.toList) :
    ∃ t, Plain t ∧ ∀ loc ∈ locs, t.at? loc = some .folder := by
  induction locs with
  | nil => exact ⟨_, plain_empty, by simp⟩
  | cons loc locs ih =>
    obtain ⟨t, ht, hlocs⟩ := ih fun l hl => h l (mem_cons_of_mem _ hl)
    obtain ⟨t', ht', hloc, hkeep⟩ := ht.extend [] loc (at?_nil t)
      (h loc mem_cons_self)
    refine ⟨t', ht', fun l hl => ?_⟩
    rcases mem_cons.1 hl with rfl | hl
    · exact hloc
    · exact hkeep l (hlocs l hl)

theorem Plain.join_root (h : Plain t) (root : String) : (t.cwd.join ⟨root, []⟩).parts = [] := by
  rw [h.cwd, Path.join]
  split <;> rfl

theorem Plain.place (h : Plain t) (root : String) {names : List String}
    (hnames : ∀ x ∈ names, x ≠ "..") : t.place ⟨root, names⟩ = names := by
  refine (t.place_append ⟨root, []⟩ hnames).trans ?_
  rw [FileTree.place, Path.resolve, h.join_root]
  rfl

theorem Plain.isFolder (h : Plain t) (root : String) {names : List String}
    (hnames : ∀ x ∈ names, x ≠ "..") (hf : t.at? names = some .folder) :
    t.isFolder ⟨root, names⟩ = true := by
  rw [isFolder_iff, h.place root hnames]
  refine ⟨(t.gap?_append ⟨root, []⟩ hnames).trans ?_, hf⟩
  rw [gap?_eq_none, turns_eq, h.join_root]
  exact fun _ hloc => nomatch hloc

end FileTree

/-! ## Pages below the folder -/

namespace Page

open Path (IsName)

variable {f : Format} {p : ProjectDoc} {out : Path} {m : ModuleDoc} {w : World}

/-- The failure of a page that lies elsewhere than in the folder of the pages. -/
def IsElsewhere (e : Fault) : Prop := ∃ file dir, e = .notBelow file dir

theorem not_isElsewhere_missing (t : FileTree) (q : Path) : ¬ IsElsewhere (t.missing q) := by
  rintro ⟨file, dir, he⟩
  rw [missing] at he
  split at he <;> cases he

variable {t : FileTree} {e : Fault} {names : List String}

theorem not_isElsewhere_makeFolder {q : Path} (h : t.makeFolder q = .error e) :
    ¬ IsElsewhere e := by
  simp only [makeFolder] at h
  split at h
  · cases h
  · cases h
    rintro ⟨_, _, he⟩
    cases he
  · split at h
    · cases h
    · cases h
      exact not_isElsewhere_missing t q

theorem not_isElsewhere_makeFoldersTo {root : String}
    (h : t.makeFoldersTo root names = .error e) : ¬ IsElsewhere e := by
  induction names generalizing e with
  | nil => exact not_isElsewhere_makeFolder h
  | cons name up ih =>
    rw [makeFoldersTo] at h
    split at h
    · cases hup : t.makeFoldersTo root up with
      | error e' =>
        rw [hup] at h
        cases h
        exact ih hup
      | ok u =>
        rw [hup] at h
        exact not_isElsewhere_makeFolder h
    · exact not_isElsewhere_makeFolder h

theorem avoids_makeFolders (q : Path) : Avoids IsElsewhere (makeFolders q) :=
  .changeFiles fun _ _ => not_isElsewhere_makeFoldersTo

theorem avoids_writeText (q : Path) (s : String) : Avoids IsElsewhere (writeText q s) := by
  refine .changeFiles fun t e h => ?_
  simp only [FileTree.writeText, FileTree.writeBytes] at h
  split at h
  · cases h
    rintro ⟨_, _, he⟩
    cases he
  · cases h
  · split at h
    · cases h
    · cases h
      exact not_isElsewhere_missing t q

theorem parent_moduleFile_of_not_rooted (f : Format) (out : Path) (h : ¬ Rooted m) : ∃ folders,
    (∀ x ∈ folders, x ≠ "..") ∧ (moduleFile f out m).parent = ⟨out.root, out.parts ++ folders⟩ := by
  obtain ⟨folders, last, hparts, hfolders, -⟩ := partsOf_page f m
  refine ⟨folders, fun x hx => (hfolders x hx).1.ne_dots, ?_⟩
  rw [moduleFile_of_not_rooted h, hparts, ← append_assoc, Path.parent_append]

theorem moduleText_of_not_rooted (f : Format) (p : ProjectDoc) (out : Path) (h : ¬ Rooted m) :
    ∃ text, moduleText f p out m = .ok text := by
  cases f with
  | markdown => exact ⟨_, rfl⟩
  | html =>
    obtain ⟨folders, -, hparent⟩ := parent_moduleFile_of_not_rooted .html out h
    have hup : ∃ up, stepsUp (moduleFile .html out m) out = .ok up := by
      rw [stepsUp, hparent, Path.relativeTo?, if_pos (by simp)]
      exact ⟨_, rfl⟩
    obtain ⟨up, hup⟩ := hup
    exact ⟨_, Except.bind_ok_iff.2 ⟨up, hup, rfl⟩⟩

theorem avoids_writeSite (h : ∀ m ∈ p.modules, ¬ Rooted m) :
    Avoids IsElsewhere (writeSite f p out) := by
  refine .bind (avoids_makeFolders _) fun _ => .bind (avoids_writeText _ _) fun _ =>
    .bind (.mapM fun m hm => ?_) fun _ => .pure _
  refine .bind (avoids_makeFolders _) fun _ => .bind (.ofExcept fun e he => ?_) fun _ =>
    .bind (avoids_writeText _ _) fun _ => .pure _
  obtain ⟨text, htext⟩ := moduleText_of_not_rooted f p out (h m hm)
  rw [htext] at he
  cases he

theorem onWay_below {folders loc : List String} (hfolders : ∀ x ∈ folders, x ≠ "..")
    (h : t.OnWay ⟨out.root, out.parts ++ folders⟩ loc) : t.place out <+: loc ∨ t.OnWay out loc := by
  obtain ⟨parts, hparts, rfl⟩ := h
  rcases prefix_or_prefix_of_prefix hparts (prefix_append _ _) with hpre | ⟨names, rfl⟩
  · exact .inr ⟨parts, hpre, rfl⟩
  · have hnames : ∀ x ∈ names, x ≠ ".." := fun x hx =>
      hfolders x (((prefix_append_right_inj _).1 hparts).subset hx)
    rw [t.place_append out hnames]
    exact .inl (prefix_append _ _)

/-- Writing a site stays in the folder of the pages: in every world, and however it ends, files are
only written there, folders are only made there or on the way there, and it does not fail for a page
that lies elsewhere. -/
def Contained (f : Format) (p : ProjectDoc) (out : Path) : Prop :=
  ∀ w : World, w.files.WellFormed →
    Grown (fun loc => w.files.place out <+: loc)
      (fun loc => w.files.place out <+: loc ∨ w.files.OnWay out loc) w.files
      ((writeSite f p out).exec w).2.files ∧
    ∀ e, ((writeSite f p out).exec w).1 = .error e → ¬ IsElsewhere e

theorem contained_of_not_rooted (hout : out.Proper) (h : ∀ m ∈ p.modules, ¬ Rooted m) :
    Contained f p out := by
  intro w hw
  have hgrows : Grows w.files.cwd (fun loc => w.files.place out <+: loc)
      (fun loc => w.files.place out <+: loc ∨ w.files.OnWay out loc) (writeSite f p out) := by
    have hplace : ∀ t : FileTree, t.cwd = w.files.cwd → ∀ q, t.place q = w.files.place q :=
      fun t ht q => by simp only [place, ht]
    have hway : ∀ t : FileTree, t.cwd = w.files.cwd →
        ∀ q loc, t.OnWay q loc → w.files.OnWay q loc := by
      rintro t ht q loc ⟨parts, hparts, rfl⟩
      exact ⟨parts, hparts, hplace t ht _⟩
    refine grows_writeSite hout (fun t ht => ⟨?_, fun m hm => ?_⟩)
      fun t ht loc => ⟨?_, fun m hm => ?_⟩
    · rw [hplace t ht, (isPage_indexFile f out).place]
      exact prefix_append _ _
    · rw [hplace t ht, place_moduleFile_of_not_rooted (h m hm)]
      exact prefix_append _ _
    · exact fun hloc => .inr (hway t ht out loc hloc)
    · intro hloc
      obtain ⟨folders, hfolders, hparent⟩ :=
        parent_moduleFile_of_not_rooted f out (h m hm)
      rw [hparent] at hloc
      exact onWay_below hfolders (hway t ht _ loc hloc)
  exact ⟨(hgrows w hw rfl).2, avoids_writeSite h w⟩

/-! ## Pages elsewhere -/

theorem exists_parts {root : String} (hnames : ∀ x ∈ names, IsName x ∧ '.' ∉ x.toList) {file : Path}
    (hfile : file ∈ sitePaths f p ⟨root, names⟩) :
    ∃ root folders last, file = ⟨root, folders ++ [last]⟩ ∧
      (∀ x ∈ folders, IsName x ∧ '.' ∉ x.toList) ∧ IsName last ∧ '.' ∈ last.toList := by
  obtain ⟨base, folders, last, hbase, hpage⟩ : ∃ base folders last,
      (base = ⟨root, names⟩ ∨ base.isAbsolute = true ∧ base.parts = []) ∧
        IsPage f.extension base folders last file := by
    rcases mem_cons.1 hfile with rfl | hfile
    · exact ⟨_, _, _, .inl rfl, isPage_indexFile f _⟩
    · obtain ⟨m, -, rfl⟩ := mem_map.1 hfile
      exact isPage_moduleFile f _ m
  have hdot : '.' ∈ last.toList := hpage.ends.subset (by cases f <;> decide)
  refine ⟨base.root, base.parts ++ folders, last, ?_, fun x hx => ?_, hpage.isName, hdot⟩
  · rw [hpage.eq, append_assoc]
  · rcases mem_append.1 hx with hx | hx
    · rcases hbase with rfl | ⟨-, hparts⟩
      · exact hnames x hx
      · rw [hparts] at hx
        cases hx
    · exact hpage.names x hx

/-- There is a tree in which all pages can be written and none has been. -/
theorem exists_ready (f : Format) (p : ProjectDoc) (root : String)
    (hnames : ∀ x ∈ names, IsName x ∧ '.' ∉ x.toList) :
    ∃ t : FileTree, Plain t ∧ ∀ file ∈ sitePaths f p ⟨root, names⟩,
      t.isFolder file.parent = true ∧ t.at? (t.place file) = none := by
  obtain ⟨t, ht, hfolders⟩ := exists_plain
    ((sitePaths f p ⟨root, names⟩).map fun file => file.parent.parts) (by
      intro loc hloc
      obtain ⟨file, hfile, rfl⟩ := mem_map.1 hloc
      obtain ⟨_, folders, last, rfl, hfolders, -⟩ := exists_parts hnames hfile
      rw [Path.parent_append]
      exact hfolders)
  refine ⟨t, ht, fun file hfile => ?_⟩
  have hparent := hfolders _ (mem_map_of_mem hfile)
  obtain ⟨root', folders, last, rfl, hdotless, hlast, hdot⟩ := exists_parts hnames hfile
  have hdots : ∀ x ∈ folders, x ≠ ".." := fun x hx => (hdotless x hx).1.ne_dots
  rw [Path.parent_append] at hparent ⊢
  refine ⟨ht.isFolder root' hdots hparent, ?_⟩
  have hplace : t.place ⟨root', folders ++ [last]⟩ = folders ++ [last] :=
    ht.place root' fun x hx => by
      rcases mem_append.1 hx with hx | hx
      · exact hdots x hx
      · rw [mem_singleton.1 hx]
        exact hlast.ne_dots
  rw [hplace]
  cases hat : t.at? (folders ++ [last]) with
  | none => rfl
  | some e => exact absurd hdot ((ht.folder hat).2 last (by simp))

/-- A page can be written to a file. -/
def Ready (t : FileTree) (file : Path) : Prop :=
  t.isFolder file.parent = true ∧ t.at? (t.place file) ≠ some .folder

theorem Ready.writePage {t' : FileTree} {file q : Path} {s : String} (hfile : Ready t file)
    (ht : t.WellFormed) (hleaf : IsLeaf q) (hpage : Ready t q)
    (h : writePage t (q, s) = .ok t') : Ready t' file := by
  obtain ⟨-, hg, -, -⟩ := writePage_spec ht hleaf h
  refine ⟨hg.isFolder hfile.1, ?_⟩
  rw [hg.place_eq]
  rcases hg.entry (t.place file) with he | ⟨⟨hnone, -⟩, -⟩ | ⟨-, -, _, he⟩
  · rw [he]
    exact hfile.2
  · rw [hpage.1] at hnone
    cases hnone
  · rw [he]
    exact nofun

/-- Where all pages can be written, writing them fails as their texts do. -/
theorem exec_writeModules_error {ms : List ModuleDoc} (hout : out.Proper)
    (h : ms.mapM (modulePage f p out) = .error e) (hw : w.files.WellFormed)
    (hready : ∀ m ∈ ms, Ready w.files (moduleFile f out m)) :
    ((ms.mapM (writeModule f p out)).exec w).1 = .error e := by
  induction ms generalizing w with
  | nil => cases h
  | cons m ms ih =>
    have hm := hready m mem_cons_self
    rw [mapM_cons] at h ⊢
    rw [exec_bind]
    cases htext : moduleText f p out m with
    | error e' =>
      rw [modulePage, htext] at h
      obtain rfl := Except.error.inj h
      have hrun : (writeModule f p out m).exec w = (.error e', w) := by
        simp only [writeModule, Action.exec_bind, Action.makeFolders, Action.exec_changeFiles,
          makeFolders_eq hm.1, Action.exec_ofExcept, htext]
      rw [hrun]
    | ok text =>
      have hpage : modulePage f p out m = .ok (moduleFile f out m, text) :=
        Except.bind_ok_iff.2 ⟨text, htext, rfl⟩
      have hleaf := isLeaf_moduleFile hout f m
      obtain ⟨t, hwrite⟩ : ∃ t, writePage w.files (moduleFile f out m, text) = .ok t :=
        ⟨_, writePage_eq hleaf hm.1 hm.2⟩
      have hrun := writeModule_ok.2 ⟨_, t, hpage, hwrite, rfl, rfl⟩
      have hrest : ms.mapM (modulePage f p out) = .error e := by
        rw [hpage] at h
        cases hms : ms.mapM (modulePage f p out) with
        | ok ps => rw [hms] at h; cases h
        | error e' => rw [hms] at h; exact h
      have herror := ih (w := { w with files := t }) hrest
        (writePage_spec hw hleaf hwrite).1 fun n hn =>
        (hready n (mem_cons_of_mem _ hn)).writePage hw hleaf hm hwrite
      rw [hrun]
      dsimp only
      rw [exec_bind]
      split
      next hexec => rw [hexec] at herror; cases herror
      next hexec => rw [hexec] at herror; exact herror

theorem moduleText_html_error (h : moduleText .html p out m = .error e) : IsElsewhere e := by
  rw [moduleText] at h
  cases hup : stepsUp (moduleFile .html out m) out with
  | ok up => rw [hup] at h; cases h
  | error e' =>
    rw [hup] at h
    cases h
    rw [stepsUp] at hup
    split at hup
    · cases hup
    · cases hup
      exact ⟨_, _, rfl⟩

/-- A page that begins at the root has no steps up to a folder beside it. -/
theorem mapM_modulePage_rooted {names : List String} (hm : m ∈ p.modules) (hrooted : Rooted m) :
    ∃ e, p.modules.mapM (modulePage .html p ⟨"", names⟩) = .error e ∧ IsElsewhere e := by
  cases hms : p.modules.mapM (modulePage .html p ⟨"", names⟩) with
  | ok ms =>
    obtain ⟨page, -, hpage⟩ := Except.exists_of_mapM hms hm
    obtain ⟨text, htext, -⟩ := Except.bind_ok_iff.1 hpage
    obtain ⟨_, -, hfile⟩ := exists_names_of_html htext
    have habs := (isAbsolute_page .html m).2 hrooted
    rw [← moduleFile_of_rooted hrooted, hfile] at habs
    cases habs
  | error e =>
    obtain ⟨n, -, hn⟩ := Except.exists_of_mapM_error hms
    cases htext : moduleText .html p ⟨"", names⟩ n with
    | ok text => rw [modulePage, htext] at hn; cases hn
    | error e' =>
      rw [modulePage, htext] at hn
      cases hn
      exact ⟨_, rfl, moduleText_html_error htext⟩

section Rooted

variable {names : List String} (hnames : ∀ x ∈ names, IsName x ∧ '.' ∉ x.toList)
include hnames

theorem prefix_of_contained (hm : m ∈ p.modules) (hrooted : Rooted m)
    (h : Contained .markdown p ⟨"", names⟩) :
    names <+: Path.partsOf (m.pagePath ++ Format.markdown.extension) := by
  obtain ⟨t, ht, hready⟩ := exists_ready .markdown p "" hnames
  have hout : Path.Proper ⟨"", names⟩ := fun x hx => .inr (hnames x hx).1
  obtain ⟨ms, hms⟩ : ∃ ms, p.modules.mapM (modulePage .markdown p ⟨"", names⟩) = .ok ms :=
    Except.mapM_ok fun m _ => ⟨(moduleFile .markdown ⟨"", names⟩ m, markdownModule m), rfl⟩
  have hps : pages .markdown p ⟨"", names⟩ = .ok _ := Except.bind_ok_iff.2 ⟨ms, hms, rfl⟩
  have hmem : ∀ page ∈ _ :: ms, page.1 ∈ sitePaths .markdown p ⟨"", names⟩ := fun page hpage =>
    map_fst_pages hps ▸ mem_map_of_mem hpage
  obtain ⟨t', ht', hat⟩ := writePages_eq ht.wellFormed (fun page => isLeaf_of_mem hout hps)
    (fun page hpage => (hready page.1 (hmem page hpage)).1) fun page hpage => by
      rw [(hready page.1 (hmem page hpage)).2]
      exact nofun
  have hrun := (writeSite_ok (w := { files := t })).2 ⟨_, t', hps, ht', rfl, rfl⟩
  obtain ⟨hg, -⟩ := h { files := t } ht.wellFormed
  rw [hrun] at hg
  -- the page was not there, and it is there now
  have hfile : moduleFile .markdown ⟨"", names⟩ m ∈ sitePaths .markdown p ⟨"", names⟩ :=
    mem_cons_of_mem _ (mem_map_of_mem hm)
  have hnone := (hready _ hfile).2
  rw [← map_fst_pages hps] at hfile
  obtain ⟨page, hpage, hpath⟩ := mem_map.1 hfile
  obtain ⟨s, hs⟩ := exists_lastText (t := t) hpage
  have hnew := hat (t.place page.1)
  rw [hs, hpath] at hnew
  have hplace := ht.place "" fun x hx => (hnames x hx).1.ne_dots
  rcases hg.entry (t.place (moduleFile .markdown ⟨"", names⟩ m)) with he | ⟨-, -, he⟩ | ⟨hpre, -⟩
  · rw [hnone, hnew] at he
    cases he
  · rw [hnew] at he
    cases he
  · rwa [hplace, place_moduleFile_of_rooted hrooted] at hpre

theorem not_contained_html (hm : m ∈ p.modules) (hrooted : Rooted m) :
    ¬ Contained .html p ⟨"", names⟩ := by
  intro h
  obtain ⟨t, ht, hready⟩ := exists_ready .html p "" hnames
  have hout : Path.Proper ⟨"", names⟩ := fun x hx => .inr (hnames x hx).1
  have hready : ∀ file ∈ sitePaths .html p ⟨"", names⟩, Ready t file := fun file hfile =>
    ⟨(hready file hfile).1, by rw [(hready file hfile).2]; exact nofun⟩
  obtain ⟨e, he, hbad⟩ := mapM_modulePage_rooted hm hrooted
  have hleaf := (isPage_indexFile .html ⟨"", names⟩).isLeaf hout
  have hindex := hready _ mem_cons_self
  obtain ⟨s, hs⟩ : ∃ s, indexText .html p = s := ⟨_, rfl⟩
  obtain ⟨t₁, hwrite⟩ : ∃ t₁, writePage t (indexFile .html ⟨"", names⟩, s) = .ok t₁ :=
    ⟨_, writePage_eq hleaf hindex.1 hindex.2⟩
  have herror := exec_writeModules_error (w := { files := t₁ }) hout he
    (writePage_spec ht.wellFormed hleaf hwrite).1 fun m hm =>
    (hready _ (mem_cons_of_mem _ (mem_map_of_mem hm))).writePage
      ht.wellFormed hleaf hindex hwrite
  refine (h { files := t } ht.wellFormed).2 e ?_ hbad
  rw [writePage, makeFolders_eq hindex.1] at hwrite
  have hfolder := hindex.1
  rw [parent_indexFile] at hfolder
  have hmake : (makeFolders ⟨"", names⟩).exec { files := t } = (.ok (), { files := t }) :=
    exec_makeFolders_ok.2 ⟨t, makeFolders_eq hfolder, rfl⟩
  have htext : (writeText (indexFile .html ⟨"", names⟩) s).exec { files := t } =
      (.ok (), { files := t₁ }) := exec_writeText_ok.2 ⟨t₁, hwrite, rfl⟩
  rw [writeSite, hs, exec_bind, hmake]
  dsimp only
  rw [exec_bind, htext]
  dsimp only
  rw [exec_bind]
  split
  next hexec => rw [hexec] at herror; cases herror
  next hexec => rw [hexec] at herror; exact herror

end Rooted

/-- **A site stays in its folder, whatever folder that is, exactly if no page begins at the
root.** -/
theorem contained_iff :
    (∀ out : Path, out.Proper → Contained f p out) ↔ ∀ m ∈ p.modules, ¬ Rooted m := by
  refine ⟨fun h m hm hrooted => ?_, fun h out hout => contained_of_not_rooted hout h⟩
  have ha : ∀ x ∈ ["a"], IsName x ∧ '.' ∉ x.toList := by decide
  have hb : ∀ x ∈ ["b"], IsName x ∧ '.' ∉ x.toList := by decide
  have hpa : Path.Proper ⟨"", ["a"]⟩ := fun x hx => .inr (ha x hx).1
  have hpb : Path.Proper ⟨"", ["b"]⟩ := fun x hx => .inr (hb x hx).1
  cases f with
  | markdown =>
    -- the page is the same one for both folders
    have hpre := prefix_of_contained ha hm hrooted (h _ hpa)
    rcases List.prefix_or_prefix_of_prefix hpre (prefix_of_contained hb hm hrooted (h _ hpb))
      with hp | hp
    · exact absurd hp (by decide)
    · exact absurd hp (by decide)
  | html => exact not_contained_html ha hm hrooted (h _ hpa)

def hidden : FileTree :=
  ⟨.ofString "/w", [(["w"], .folder), (["w", "src"], .folder),
    (["w", "src", ".a.py"], .file "\"text\"\n".toUTF8.toList)]⟩

theorem hidden_not_contained :
    ∃ p, Project.ofAll false hidden (.ofString "src") [] = .ok p ∧
      ¬ ∀ out : Path, out.Proper → Contained .html p out := by
  have hfacts : (match Project.ofAll false hidden (.ofString "src") [] with
      | .ok p => p.modules.map fun m => m.name
      | .error _ => []) = [".a"] := by decide +kernel
  cases hp : Project.ofAll false hidden (.ofString "src") [] with
  | error e => simp [hp] at hfacts
  | ok p =>
    simp only [hp] at hfacts
    obtain ⟨m, hm, hname⟩ := List.mem_map.1 (hfacts ▸ List.mem_singleton_self ".a")
    refine ⟨p, rfl, fun h => contained_iff.1 h m hm ?_⟩
    rw [Rooted, hname]
    exact .inl rfl

end Page

end Docsmith
