/-
Pages that stay.

No build removes a page. Below the folder of the pages there are, after any sequence of edits and
builds, the pages of all sources that were documented so far (`Timeline.pagesKept`), also of those
that are gone.
-/
import Docsmith.Proofs.Assistance

namespace Docsmith.Build

open FileTree Snapshot

variable {b : Build} {s : Start} {dir : Path} {out loc : List String} {w w' : World}

def Below (t : FileTree) (dir : Path) (loc : List String) : Prop :=
  ∃ names, names ≠ [] ∧ loc = t.place dir ++ names

/-- A file below a folder that has the name of a page. -/
structure PageAt (dir : Path) (t : FileTree) (loc : List String) : Prop where
  below : Below t dir loc
  file : ∃ bytes, t.at? loc = some (.file bytes)
  name : ".md".toList <:+ (loc.getLast?.getD "").toList ∨
    ".html".toList <:+ (loc.getLast?.getD "").toList

/-- The places where the pages of a project belong. -/
def sitePlaces (b : Build) (p : ProjectDoc) (t : FileTree) : List (List String) :=
  (Page.sitePaths (.ofValue b.format) p b.output).map t.place

/-- A place below the folder of the pages where a page of a project belongs. -/
def SiteAt (b : Build) (p : ProjectDoc) (t : FileTree) (loc : List String) : Prop :=
  Below t b.output loc ∧ loc ∈ b.sitePlaces p t

/-- A place below the folder of the pages where a page of the sources in a tree belongs. -/
def BelongsAt (b : Build) (t : FileTree) (loc : List String) : Prop :=
  ∃ out p, b.excluded = .ok out ∧ b.project out t = .ok p ∧ SiteAt b p t loc

variable {t t' : FileTree} {starts : List World}

theorem below_congr (h : t'.cwd = t.cwd) : Below t' dir loc ↔ Below t dir loc := by
  simp only [Below, place, h]

theorem belongsAt_iff {p : ProjectDoc} (hout : b.excluded = .ok out)
    (hproject : b.project out t = .ok p) : BelongsAt b t loc ↔ SiteAt b p t loc := by
  refine ⟨?_, fun hsite => ⟨out, p, hout, hproject, hsite⟩⟩
  rintro ⟨out', p', hout', hproject', hsite⟩
  obtain rfl : out = out' := Except.ok.inj (hout.symm.trans hout')
  obtain rfl : p = p' := Except.ok.inj (hproject.symm.trans hproject')
  exact hsite

/-! ## What one build adds -/

theorem name_of_page {p : ProjectDoc} {ps : List (Path × String)}
    (hps : Page.pages (.ofValue b.format) p b.output = .ok ps) {page : Path × String}
    (hpage : page ∈ ps) (t : FileTree) :
    ".md".toList <:+ ((t.place page.1).getLast?.getD "").toList ∨
      ".html".toList <:+ ((t.place page.1).getLast?.getD "").toList := by
  obtain ⟨base, folders, last, -, hfile⟩ := Page.isPage_of_mem hps hpage
  have hends := hfile.ends
  rw [hfile.place, ← List.append_assoc, List.getLast?_concat, Option.getD_some]
  cases hf : Page.Format.ofValue b.format with
  | markdown => rw [hf] at hends; exact .inl hends
  | html => rw [hf] at hends; exact .inr hends

theorem not_pageAt_of_name {name : String} (hname : name ∈ [fileName, Report.fileName]) :
    ¬ PageAt dir t' (t.place dir ++ [name]) := by
  intro h
  have hends := h.name
  rw [List.getLast?_concat, Option.getD_some] at hends
  have hapart : ∀ x ∈ [fileName, Report.fileName],
      ¬ (".md".toList <:+ x.toList ∨ ".html".toList <:+ x.toList) := by decide
  exact hapart name hname hends

section Grown

variable {P Q : List String → Prop} {t t' : FileTree}

theorem PageAt.grown (h : PageAt dir t loc) (hg : Grown P Q t t') : PageAt dir t' loc := by
  refine ⟨(below_congr hg.cwd).2 h.below, ?_, h.name⟩
  obtain ⟨bytes, hbytes⟩ := h.file
  rcases hg.entry loc with he | ⟨-, hn, -⟩ | ⟨-, -, hfile⟩
  · exact ⟨bytes, he.trans hbytes⟩
  · rw [hbytes] at hn
    cases hn
  · exact hfile

theorem PageAt.of_grown (h : PageAt dir t' loc) (hg : Grown P Q t t') :
    PageAt dir t loc ∨ P loc := by
  obtain ⟨bytes, hbytes⟩ := h.file
  rcases hg.entry loc with he | ⟨-, -, hf⟩ | ⟨hp, -⟩
  · exact .inl ⟨(below_congr hg.cwd).1 h.below, ⟨bytes, he.symm.trans hbytes⟩, h.name⟩
  · rw [hbytes] at hf
    cases hf
  · exact .inr hp

theorem siteAt_congr {p : ProjectDoc} (h : t'.cwd = t.cwd) :
    SiteAt b p t' loc ↔ SiteAt b p t loc := by
  have hplace : t'.place = t.place := funext fun q => by simp only [place, h]
  rw [SiteAt, SiteAt, below_congr h, sitePlaces, sitePlaces, hplace]

end Grown

/-- **Writing pages** adds them to those that are there. -/
theorem pageAt_finish (hw : w.files.WellFormed) (houtput : b.output.Proper)
    (h : (b.finish s).exec w = (.ok (), w')) :
    PageAt b.output w'.files loc ↔
      PageAt b.output w.files loc ∨ SiteAt b s.project w.files loc := by
  obtain ⟨ps, hps, -, hg, hin, -⟩ := finish_spec hw houtput h
  constructor
  · intro hpage
    rcases hpage.of_grown hg with hpage | rfl | ⟨page, hmem, rfl⟩
    · exact .inl hpage
    · rw [place_reportFile] at hpage
      exact absurd hpage (not_pageAt_of_name (by simp))
    · refine .inr ⟨(below_congr hg.cwd).1 hpage.below, List.mem_map_of_mem ?_⟩
      rw [← Page.map_fst_pages hps]
      exact List.mem_map_of_mem hmem
  · rintro (hpage | ⟨hbelow, hplace⟩)
    · exact hpage.grown hg
    · rw [sitePlaces, ← Page.map_fst_pages hps, List.map_map] at hplace
      obtain ⟨page, hmem, rfl⟩ := List.mem_map.1 hplace
      obtain ⟨text, htext⟩ := Page.exists_lastText (t := w'.files) hmem
      refine ⟨(below_congr hg.cwd).2 hbelow, ?_, name_of_page hps hmem w.files⟩
      rw [hg.place_eq] at htext
      exact ⟨_, hin.text htext⟩

/-- **A full build** adds the pages of the sources. -/
theorem pageAt_run_full (hinc : b.isIncremental = false) (hai : b.isAssisted = false)
    (houtput : b.output.Proper) (hw : w.files.WellFormed) (h : b.run.exec w = (.ok (), w')) :
    PageAt b.output w'.files loc ↔ PageAt b.output w.files loc ∨ BelongsAt b w.files loc := by
  obtain ⟨out, project, hout, hproject, hfinish⟩ := (run_full_ok hinc hai).1 h
  rw [pageAt_finish hw houtput hfinish, belongsAt_iff hout hproject]
  rfl

/-- A build documents the sources of a tree: those that it reads at its start, or those that the
assistant has left. -/
def Documents (b : Build) (w : World) (t : FileTree) : Prop :=
  ∃ out s w₁ s' w₂, b.excluded = .ok out ∧
    (b.startIncremental out).exec w = (.ok (some s), w₁) ∧
    (b.assisted out s).exec w₁ = (.ok s', w₂) ∧ b.project out t = .ok s'.project ∧
    (t = w.files ∨ b.isAssisted = true ∧ t = w₂.files)

theorem not_pageAt_of_source (h : loc = t.place b.stateFile ∨
    Project.isSourceName (loc.getLast?.getD "") = true) : ¬ PageAt b.output t' loc := by
  rcases h with rfl | h
  · rw [place_stateFile]
    exact not_pageAt_of_name (by simp)
  · intro hpage
    rcases hpage.name with hends | hends
    · rw [isSourceName_of_ends (by decide) hends] at h
      cases h
    · rw [isSourceName_of_ends (by decide) hends] at h
      cases h

/-- The state, if there is one, was written by a build. -/
def StateKept (b : Build) (t : FileTree) : Prop :=
  ∀ bytes, t.at? (t.place b.stateFile) = some (.file bytes) → ∃ v d, Holds v d ∧
    Named d ∧ bytes = (text ⟨b.stateFile, v⟩).toUTF8.toList

theorem StateKept.kept (h : StateKept b t) : Kept t b.stateFile :=
  fun bytes hbytes => h bytes (find?_eq_some.1 hbytes).2

section Run

variable (hinc : b.isIncremental = true) (hsource : b.source.Proper) (houtput : b.output.Proper)
  (hw : w.files.WellFormed) (hkept : Kept w.files b.stateFile)
  (h : b.run.exec w = (.ok (), w'))

include hinc hsource houtput hw hkept h

theorem run_cases :
    w' = { w with printed := w.printed ++ [skipNotice] } ∨ ∃ out s w₁ s' w₂,
      b.excluded = .ok out ∧ (b.startIncremental out).exec w = (.ok (some s), w₁) ∧
      (b.assisted out s).exec w₁ = (.ok s', w₂) ∧ (b.finish s').exec w₂ = (.ok (), w') ∧
      w₂.files.WellFormed ∧ Grown (fun loc => loc = w.files.place b.stateFile ∨
        Project.isSourceName (loc.getLast?.getD "") = true) (fun _ => True) w.files w₂.files := by
  obtain ⟨out, hout, hskip | ⟨s, w₁, hstart, hproceed⟩⟩ := (run_ok hinc).1 h
  · exact .inl (startIncremental_none hkept hskip).1
  · obtain ⟨s', w₂, hassisted, hfinish⟩ := Action.exec_bind_ok.1 hproceed
    exact .inr ⟨out, s, w₁, s', w₂, hout, hstart, hassisted, hfinish,
      grown_assisted hsource houtput hw hkept hstart hassisted⟩

variable (hbuilds : w'.printed ≠ w.printed ++ [skipNotice])

include hbuilds

/-- **An incremental build** that is not skipped adds the pages of the sources that it documents. -/
theorem pageAt_run : PageAt b.output w'.files loc ↔
    PageAt b.output w.files loc ∨ ∃ t, Documents b w t ∧ BelongsAt b t loc := by
  rcases run_cases hinc hsource houtput hw hkept h with
    rfl | ⟨out, s, w₁, s', w₂, hout, hstart, hassisted, hfinish, hw₂, hg⟩
  · exact absurd rfl hbuilds
  have hbefore : PageAt b.output w₂.files loc ↔ PageAt b.output w.files loc :=
    ⟨fun hpage => (hpage.of_grown hg).resolve_right fun hp => not_pageAt_of_source hp hpage,
      fun hpage => hpage.grown hg⟩
  rw [pageAt_finish hw₂ houtput hfinish, hbefore, siteAt_congr hg.cwd]
  refine or_congr_right ⟨fun hsite => ?_, ?_⟩
  · obtain ⟨-, -, -, -, -, -, -, -, -, -, -, hproject, -, -⟩ :=
      startIncremental_some hw hkept hstart
    rcases (project_assisted hassisted).2 with hstill | ⟨hai, hread⟩
    · rw [← hstill] at hproject
      exact ⟨w.files, ⟨out, s, w₁, s', w₂, hout, hstart, hassisted, hproject, .inl rfl⟩,
        (belongsAt_iff hout hproject).2 hsite⟩
    · exact ⟨w₂.files, ⟨out, s, w₁, s', w₂, hout, hstart, hassisted, hread, .inr ⟨hai, rfl⟩⟩,
        (belongsAt_iff hout hread).2 ((siteAt_congr hg.cwd).2 hsite)⟩
  · rintro ⟨t, ⟨out', _, _, _, _, hout', hstart', hassisted', hread, ht⟩, hbelongs⟩
    obtain rfl : out = out' := Except.ok.inj (hout.symm.trans hout')
    cases hstart.symm.trans hstart'
    cases hassisted.symm.trans hassisted'
    have hcwd : t.cwd = w.files.cwd := by
      rcases ht with rfl | ⟨-, rfl⟩
      · rfl
      · exact hg.cwd
    exact (siteAt_congr hcwd).1 ((belongsAt_iff hout hread).1 hbelongs)

theorem documents_files (hai : b.isAssisted = false) : Documents b w w.files := by
  rcases run_cases hinc hsource houtput hw hkept h with
    rfl | ⟨out, s, w₁, s', w₂, hout, hstart, hassisted, -, -, -⟩
  · exact absurd rfl hbuilds
  obtain ⟨-, -, -, -, -, -, -, -, -, -, -, hproject, -, -⟩ :=
    startIncremental_some hw hkept hstart
  rcases (project_assisted hassisted).2 with hstill | ⟨hassistant, -⟩
  · rw [← hstill] at hproject
    exact ⟨out, s, w₁, s', w₂, hout, hstart, hassisted, hproject, .inl rfl⟩
  · rw [hai] at hassistant
    cases hassistant

theorem stateKept_run : StateKept b w'.files := by
  obtain ⟨out, hout, hskip | ⟨s, w₁, hstart, hproceed⟩⟩ := (run_ok hinc).1 h
  · exact absurd (congrArg World.printed (startIncremental_none hkept hskip).1) hbuilds
  obtain ⟨v, -, hfile⟩ := find?_stateFile_proceed hsource houtput hw hkept hstart
  rw [hproceed] at hfile
  have hkept' := kept_run hinc hsource houtput hw hkept
  rw [h] at hkept'
  exact fun bytes hbytes => hkept' bytes
    (find?_eq_some.2 ⟨(find?_eq_some.1 hfile).1, hbytes⟩)

end Run

/-! ## What stays -/

/-- A sequence of edits and of builds that succeed, with the worlds in which those of them started
that were not skipped. It starts with nothing in the folder of the pages. -/
inductive Timeline (b : Build) : List World → World → Prop
  | start {w : World} : w.files.WellFormed →
    (∀ loc, Below w.files b.output loc → w.files.at? loc = none) → Timeline b [] w
  | edit {starts : List World} {w w' : World} : Timeline b starts w →
    SourceEdit b w.files w'.files → Timeline b starts w'
  | skip {starts : List World} {w w' : World} : Timeline b starts w →
    b.run.exec w = (.ok (), w') → w'.printed = w.printed ++ [skipNotice] → Timeline b starts w'
  | build {starts : List World} {w w' : World} : Timeline b starts w →
    b.run.exec w = (.ok (), w') → w'.printed ≠ w.printed ++ [skipNotice] →
    Timeline b (w :: starts) w'

theorem SourceEdit.at?_below (h : SourceEdit b t t') (hbelow : Below t b.output loc) :
    t'.at? loc = t.at? loc := by
  obtain ⟨names, -, rfl⟩ := hbelow
  rcases h.entry (t.place b.output ++ names) with he | ⟨hn, -⟩
  · exact he
  · exact absurd (List.prefix_append _ _) hn

/-- What every step keeps: a state that can be read, and the pages of all builds. -/
structure PagesKept (b : Build) (starts : List World) (w : World) : Prop where
  wellFormed : w.files.WellFormed
  state : StateKept b w.files
  pages : ∀ loc, PageAt b.output w.files loc ↔
    ∃ w₀ ∈ starts, ∃ t, Documents b w₀ t ∧ BelongsAt b t loc

theorem below_stateFile (b : Build) (t : FileTree) : Below t b.output (t.place b.stateFile) :=
  ⟨[fileName], by simp, place_stateFile b t⟩

theorem not_pageAt_of_empty (h : ∀ loc, Below t dir loc → t.at? loc = none) :
    ¬ PageAt dir t loc := by
  intro hpage
  obtain ⟨bytes, hbytes⟩ := hpage.file
  rw [h loc hpage.below] at hbytes
  cases hbytes

theorem PagesKept.start (hw : w.files.WellFormed)
    (hempty : ∀ loc, Below w.files b.output loc → w.files.at? loc = none) : PagesKept b [] w := by
  refine ⟨hw, fun bytes hbytes => ?_, fun loc => ?_⟩
  · rw [hempty _ (below_stateFile b w.files)] at hbytes
    cases hbytes
  · exact iff_of_false (not_pageAt_of_empty hempty) (by simp)

theorem PagesKept.edit (h : PagesKept b starts w) (hedit : SourceEdit b w.files w'.files) :
    PagesKept b starts w' := by
  refine ⟨hedit.wellFormed, fun bytes hbytes => ?_, fun loc => ?_⟩
  · rw [hedit.place_eq, hedit.at?_below (below_stateFile b w.files)] at hbytes
    exact h.state bytes hbytes
  · rw [← h.pages loc]
    constructor
    · rintro ⟨hbelow, ⟨bytes, hbytes⟩, hname⟩
      rw [below_congr hedit.cwd] at hbelow
      exact ⟨hbelow, ⟨bytes, hedit.at?_below hbelow ▸ hbytes⟩, hname⟩
    · rintro ⟨hbelow, ⟨bytes, hbytes⟩, hname⟩
      exact ⟨(below_congr hedit.cwd).2 hbelow,
        ⟨bytes, (hedit.at?_below hbelow).trans hbytes⟩, hname⟩

theorem PagesKept.build (hinc : b.isIncremental = true) (hsource : b.source.Proper)
    (houtput : b.output.Proper) (h : PagesKept b starts w)
    (hrun : b.run.exec w = (.ok (), w')) (hbuilds : w'.printed ≠ w.printed ++ [skipNotice]) :
    PagesKept b (w :: starts) w' := by
  have hkept := h.state.kept
  refine ⟨?_, stateKept_run hinc hsource houtput h.wellFormed hkept hrun hbuilds, fun loc => ?_⟩
  · rcases run_cases hinc hsource houtput h.wellFormed hkept hrun with
      rfl | ⟨_, _, _, _, _, -, -, -, hfinish, hw₂, -⟩
    · exact absurd rfl hbuilds
    · obtain ⟨_, -, hw', -⟩ := finish_spec hw₂ houtput hfinish
      exact hw'
  · rw [pageAt_run hinc hsource houtput h.wellFormed hkept hrun hbuilds, h.pages, or_comm]
    simp only [List.mem_cons, or_and_right, exists_or, exists_eq_left]

/-- **Every sequence of edits and builds keeps the pages of all builds.** -/
theorem Timeline.pagesKept (hinc : b.isIncremental = true) (hsource : b.source.Proper)
    (houtput : b.output.Proper) (h : Timeline b starts w) : PagesKept b starts w := by
  induction h with
  | start hw hempty => exact .start hw hempty
  | edit _ hedit ih => exact ih.edit hedit
  | skip _ hrun hskip ih =>
    rcases run_cases hinc hsource houtput ih.wellFormed ih.state.kept hrun with
      rfl | ⟨_, _, _, _, _, -, -, -, hfinish, hw₂, -⟩
    · exact ⟨ih.wellFormed, ih.state, ih.pages⟩
    · obtain ⟨_, -, -, -, -, -, -, hprinted⟩ := finish_spec hw₂ houtput hfinish
      exact absurd hskip (hprinted _)
  | build _ hrun hbuilds ih => exact ih.build hinc hsource houtput hrun hbuilds

/-- **Pages stay.** After any sequence of edits and incremental builds there are, below the folder
of the pages, the pages that belong to the sources that were documented so far. Those are the pages
that a full build of such sources into an empty folder writes. -/
theorem pages_of_all_builds (hinc : b.isIncremental = true) (hsource : b.source.Proper)
    (houtput : b.output.Proper) {starts : List World} (h : Timeline b starts w) :
    (∀ loc, PageAt b.output w.files loc ↔
        ∃ w₀ ∈ starts, ∃ t, Documents b w₀ t ∧ BelongsAt b t loc) ∧
      ∀ w₀ w₁ : World, w₀.files.WellFormed →
        (∀ loc, Below w₀.files b.output loc → w₀.files.at? loc = none) →
        { b with isIncremental := false, isAssisted := false }.run.exec w₀ = (.ok (), w₁) →
        ∀ loc, PageAt b.output w₁.files loc ↔ BelongsAt b w₀.files loc := by
  refine ⟨(h.pagesKept hinc hsource houtput).pages, fun w₀ w₁ hw₀ hempty hrun loc => ?_⟩
  exact (pageAt_run_full (b := { b with isIncremental := false, isAssisted := false }) rfl rfl
    houtput hw₀ hrun).trans (or_iff_right (not_pageAt_of_empty hempty))

/-! ## A source that is deleted -/

/-- A tree without what is at a place. -/
def without (t : FileTree) (loc : List String) : FileTree :=
  { t with entries := t.entries.filter fun e => !(e.1 == loc) }

theorem at?_without (t : FileTree) {loc' : List String} (h : loc' ≠ loc) :
    (without t loc).at? loc' = t.at? loc' := by
  by_cases hnil : loc' = []
  · rw [hnil, at?_nil, at?_nil]
  · rw [at?_of_ne_nil _ hnil, at?_of_ne_nil _ hnil, without, List.find?_filter]
    congr 2
    funext e
    by_cases he : e.1 = loc'
    · simp [he, h]
    · simp [he]

/-- What a build of one source leaves, after the source is deleted. -/
def emptied : World := { built with files := without built.files ["w", "src", "a.py"] }

def rebuiltEmpty : World := (nestedBuild.run.exec emptied).2

theorem timeline_emptied : Timeline nestedBuild [unbuilt] emptied := by
  obtain ⟨hw, hnone, -, -, hprinted⟩ := facts_unbuilt
  obtain ⟨hedited, hfile⟩ : emptied.files.WellFormed ∧
      emptied.files.at? ["w", "src", "a.py"] ≠ some .folder := by decide +kernel
  have hedit : SourceEdit nestedBuild built.files emptied.files :=
    sourceEdit_built rfl hedited (fun _ h => at?_without _ h) hfile
  refine .edit (.build (.start hw fun loc hloc => ?_) run_unbuilt hprinted) hedit
  obtain ⟨names, -, rfl⟩ := hloc
  exact at?_below_none hw hnone

theorem documents_unbuilt : Documents nestedBuild unbuilt unbuilt.files := by
  obtain ⟨hw, -, -, -, hprinted⟩ := facts_unbuilt
  exact documents_files rfl (Path.proper_ofString _) (Path.proper_ofString _) hw kept_unbuilt
    run_unbuilt hprinted rfl

/-- The places where the pages of the sources in a tree belong. -/
def placesOf (b : Build) (t : FileTree) : Except Fault (List (List String)) := do
  let out ← b.excluded
  let p ← b.project out t
  pure (b.sitePlaces p t)

theorem belongsAt_iff_mem {places : List (List String)}
    (h : (b.placesOf t).toOption = some places) :
    BelongsAt b t loc ↔ Below t b.output loc ∧ loc ∈ places := by
  have hplaces : b.placesOf t = .ok places := by
    cases hp : b.placesOf t with
    | error e => rw [hp] at h; cases h
    | ok ps => rw [hp] at h; cases h; rfl
  simp only [placesOf, Except.bind_ok_iff, Except.pure_ok_iff] at hplaces
  obtain ⟨out, hout, p, hproject, rfl⟩ := hplaces
  exact belongsAt_iff hout hproject

theorem facts_emptied : (nestedBuild.run.exec emptied).1.isOk = true ∧
    rebuiltEmpty.printed ≠ emptied.printed ++ [skipNotice] ∧
    ["w", "src", "out", "a.md"] = unbuilt.files.place nestedBuild.output ++ ["a.md"] ∧
    (nestedBuild.placesOf unbuilt.files).toOption =
      some [["w", "src", "out", "index.md"], ["w", "src", "out", "a.md"]] ∧
    (nestedBuild.placesOf rebuiltEmpty.files).toOption = some [["w", "src", "out", "index.md"]] ∧
    rebuiltEmpty.files.place nestedBuild.output = ["w", "src", "out"] ∧
    (rebuiltEmpty.files.at? ["w", "src", "out", "a.md"]).isSome = true ∧
    rebuiltEmpty.files.at? ["w", "src", "out", "a.md"] ≠ some .folder := by
  decide +kernel

theorem run_emptied : nestedBuild.run.exec emptied = (.ok (), rebuiltEmpty) := by
  rw [rebuiltEmpty]
  exact exec_eq_of_isOk facts_emptied.1

theorem deleted_page_there :
    PageAt nestedBuild.output rebuiltEmpty.files ["w", "src", "out", "a.md"] := by
  obtain ⟨-, hprinted, hbelow, hplaces, -⟩ := facts_emptied
  have htimeline : Timeline nestedBuild [emptied, unbuilt] rebuiltEmpty :=
    .build timeline_emptied run_emptied hprinted
  have hbelongs : BelongsAt nestedBuild unbuilt.files ["w", "src", "out", "a.md"] :=
    (belongsAt_iff_mem hplaces).2 ⟨⟨["a.md"], by decide, hbelow⟩, by decide⟩
  have hall := (pages_of_all_builds rfl (Path.proper_ofString _) (Path.proper_ofString _)
    htimeline).1
  exact (hall _).2 ⟨unbuilt, by simp, unbuilt.files, documents_unbuilt, hbelongs⟩

/-- A full build of what is left would write the index only. -/
theorem deleted_page_not_removed : ¬ ∀ (b : Build) (starts : List World) (w w' : World),
    b.isIncremental = true → b.isAssisted = false → b.source.Proper → b.output.Proper →
    Timeline b starts w → b.run.exec w = (.ok (), w') →
    ∀ loc, PageAt b.output w'.files loc ↔ BelongsAt b w'.files loc := by
  intro hall
  obtain ⟨-, -, -, -, hplaces, hplace, hsome, hfolder⟩ := facts_emptied
  have hiff := hall nestedBuild _ emptied rebuiltEmpty rfl rfl (Path.proper_ofString _)
    (Path.proper_ofString _) timeline_emptied run_emptied ["w", "src", "out", "a.md"]
  have hpage : PageAt nestedBuild.output rebuiltEmpty.files ["w", "src", "out", "a.md"] := by
    refine ⟨⟨["a.md"], by decide, by rw [hplace]; rfl⟩, ?_, by decide⟩
    obtain ⟨_ | bytes, he⟩ := Option.isSome_iff_exists.1 hsome
    · exact absurd he hfolder
    · exact ⟨bytes, he⟩
  exact absurd ((belongsAt_iff_mem hplaces).1 (hiff.1 hpage)).2 (by decide)

end Docsmith.Build
