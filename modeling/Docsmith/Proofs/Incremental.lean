/-
Incremental builds against full ones.

A `History` is any sequence of edits of sources and of incremental builds that starts without a
folder of pages. What ties the pages to the sources is `Built`: the state, the pages and the
report are those of one tree of the history. Edits and skipped builds keep it
(`History.invariant`), and a build is skipped only if the sources are those of that tree, so that
after every build the pages are those of a full one (`AgreesWithFull`).
-/
import Docsmith.Proofs.Build

namespace Docsmith.Build

open FileTree List Page Project Snapshot

/-! ## Sources after a build -/

section Sources

variable {b : Build} {out : List String} {w w' : World}

theorem Rebuilds.sameSources (h : Rebuilds b out w w') :
    SameSources w.files w'.files b.source out :=
  sameSources_of_grown h.built.wellFormed h.wellFormed h.grown (fun _ hp => hp)
    fun hd => (isFolder_iff.1 (h.source hd)).1

variable {t t' : FileTree} {d : String → Option String}

theorem key_congr (h : t'.cwd = t.cwd) (p : Path) : key t' p = key t p := by
  simp only [key, h]

theorem hashFile_of_file_iff {p : Path}
    (h : ∀ bytes, t.find? p = some (.file bytes) ↔ t'.find? p = some (.file bytes)) :
    hashFile t p = hashFile t' p := by
  by_cases hread : ∃ bytes, t.find? p = some (.file bytes)
  · obtain ⟨bytes, hbytes⟩ := hread
    rw [hashFile_of_file hbytes, hashFile_of_file ((h bytes).1 hbytes)]
  · rw [hashFile_of_no_file fun bytes hb => hread ⟨bytes, hb⟩,
      hashFile_of_no_file fun bytes hb => hread ⟨bytes, (h bytes).2 hb⟩]

theorem recorded_eq {dir : Path} (ht : t.WellFormed) (ht' : t'.WellFormed) (hcwd : t'.cwd = t.cwd)
    (hin : ∀ f ∈ sourceFiles t dir out, d (key t f) = some (hashFile t f))
    (hout : ∀ name, d name ≠ none → name ∈ (sourceFiles t dir out).map (key t))
    {f : Path} (hf' : f ∈ sourceFiles t' dir out) :
    (d (key t' f)).getD "" = hashFile t f := by
  by_cases hf : f ∈ sourceFiles t dir out
  · rw [key_congr hcwd, hin f hf, Option.getD_some]
  · have hnone : d (key t' f) = none := Classical.byContradiction fun hn => by
      obtain ⟨g, hg, hkey⟩ := mem_map.1 (hout _ hn)
      exact hf (eq_of_key_eq ht ht' hcwd hg hf' hkey ▸ hg)
    rw [hnone, Option.getD_none]
    refine Classical.byContradiction fun hn => hf ?_
    obtain ⟨bytes, hbytes⟩ := exists_file_of_hashFile (Ne.symm hn)
    exact mem_sourceFiles_of_file ht ht' hf' hbytes

/-- Digests of the sources stay up to date as long as the sources stay: what else is found with the
name of a source file cannot be read, and is recorded by no digest. -/
theorem current_of_sameSources {dir : Path} {P Q : List String → Prop} (ht : t.WellFormed)
    (ht' : t'.WellFormed) (h : Grown P Q t t') (hsame : SameSources t t' dir out)
    (hin : ∀ f ∈ sourceFiles t dir out, d (key t f) = some (hashFile t f))
    (hout : ∀ name, d name ≠ none → name ∈ (sourceFiles t dir out).map (key t)) :
    Current t' (sourceFiles t' dir out) d := by
  refine ⟨fun f hf' => ?_, fun name hn => ?_⟩
  · rw [recorded_eq ht ht' h.cwd hin hout hf']
    refine hashFile_of_file_iff fun bytes => ⟨fun hbytes => ?_, fun hbytes => ?_⟩
    · exact ((hsame f bytes).1 ⟨mem_sourceFiles_of_file ht ht' hf' hbytes, hbytes⟩).2
    · exact ((hsame f bytes).2 ⟨hf', hbytes⟩).2
  · obtain ⟨f, hf, rfl⟩ := mem_map.1 (hout name hn)
    exact mem_map.2
      ⟨f, mem_sourceFiles_of_grown ht ht' h hf, key_congr h.cwd f⟩

theorem Rebuilds.current (h : Rebuilds b out w w')
    (hin : ∀ f ∈ sourceFiles w.files b.source out,
      d (key w.files f) = some (hashFile w.files f))
    (hout : ∀ name, d name ≠ none →
      name ∈ (sourceFiles w.files b.source out).map (key w.files)) :
    Current w'.files (sourceFiles w'.files b.source out) d :=
  current_of_sameSources h.built.wellFormed h.wellFormed h.grown h.sameSources hin hout

end Sources

/-! ## Full builds -/

section Full

variable {b : Build} {out : List String} {t₀ : FileTree} {w : World}

/-- Every page that a full build would write is there with the same content: a full build
succeeds, and what it writes apart from its report is there already. -/
def AgreesWithFull (b : Build) (w : World) : Prop :=
  ∃ out project w', b.excluded = .ok out ∧ b.project out w.files = .ok project ∧
    { b with isIncremental := false }.run.exec w = (.ok (), w') ∧
    (∀ file ∈ sitePaths (.ofValue b.format) project b.output, ∃ bytes,
      w'.files.find? file = some (.file bytes) ∧ w.files.find? file = some (.file bytes)) ∧
    ∀ loc, loc ≠ w.files.place b.reportFile → w'.files.at? loc = w.files.at? loc

variable {ps : List (Path × String)}

theorem isFolder_output_of_inPlace {p : ProjectDoc} {t : FileTree}
    (hps : pages (.ofValue b.format) p b.output = .ok ps) (h : InPlace t ps) :
    t.isFolder b.output = true := by
  simp only [pages, Except.bind_ok_iff, Except.pure_ok_iff] at hps
  obtain ⟨ms, -, rfl⟩ := hps
  have hindex := h.folder _ mem_cons_self
  rwa [parent_indexFile] at hindex

theorem parent_reportFile (b : Build) : b.reportFile.parent = b.output := by
  rw [reportFile_eq, Path.parent_append]

/-- Where the pages are in place, writing them again changes only the report. -/
theorem run_full_again {project : ProjectDoc} (hinc : b.isIncremental = false)
    (hai : b.isAssisted = false) (houtput : b.output.Proper) (hout : b.excluded = .ok out)
    (hw : w.files.WellFormed) (hproject : b.project out w.files = .ok project)
    (hps : pages (.ofValue b.format) project b.output = .ok ps) (hin : InPlace w.files ps)
    (hwritable : Report.unwritable? b.format = none)
    (hreport : ∃ bytes, w.files.at? (w.files.place b.reportFile) = some (.file bytes)) :
    ∃ w', b.run.exec w = (.ok (), w') ∧ InPlace w'.files ps ∧ w'.files.cwd = w.files.cwd ∧
      ∀ loc, loc ≠ w.files.place b.reportFile → w'.files.at? loc = w.files.at? loc := by
  have hleaf := isLeaf_reportFile houtput
  have hfolder := isFolder_output_of_inPlace hps hin
  obtain ⟨old, hold⟩ := hreport
  obtain ⟨t, ht, hat⟩ := hin.writePages hw fun page => isLeaf_of_mem houtput hps
  obtain ⟨-, hg, hin'⟩ := writePages_spec hw (fun page => isLeaf_of_mem houtput hps) ht
  have hfolder' := isFolder_iff.1 (hg.isFolder hfolder)
  have hn : t.at? (t.place b.reportFile) ≠ some .folder := by
    rw [hat, hg.place_eq, hold]
    simp
  have hloc := ne_nil_of_at? hn
  have hwrite : ∀ text : String, t.writeText b.reportFile text =
      .ok (t.put (t.place b.reportFile) (.file text.toUTF8.toList)) := by
    intro text
    refine writeBytes_eq _ ?_ hn ?_
    · rw [hleaf.gap?_parent, parent_reportFile]; exact hfolder'.1
    · rw [hleaf.dropLast_place, parent_reportFile]; exact hfolder'.2
  have hfinish := (finish_ok (s := b.fullStart (sourceFiles w.files b.source out) project)).2
    ⟨w.files, ps, t, _, _, makeFolders_eq hfolder, hps, ht, text?_ok.2 ⟨hwritable, rfl⟩, hwrite _,
      rfl⟩
  refine ⟨_, (run_full_ok hinc hai).2 ⟨out, project, hout, hproject, hfinish⟩, ?_,
    (put_cwd ..).trans hg.cwd, fun loc hloc => ?_⟩
  · refine hin'.kept (put_cwd ..) (fun loc hf => ?_) fun page hpage bytes hbytes => ?_
    · have hne : loc ≠ t.place b.reportFile := fun he => hn (he ▸ hf)
      rw [at?_put_other t _ hne]
      exact hf
    · rw [at?_put_other t _ (place_page_ne hps hpage t)]
      exact hbytes
  · rw [← hg.place_eq] at hloc
    rw [at?_put_other t _ hloc, hat]

theorem agreesWithFull_of_inPlace {project : ProjectDoc} (hai : b.isAssisted = false)
    (houtput : b.output.Proper) (hout : b.excluded = .ok out) (hw : w.files.WellFormed)
    (hproject : b.project out w.files = .ok project)
    (hps : pages (.ofValue b.format) project b.output = .ok ps) (hin : InPlace w.files ps)
    (hwritable : Report.unwritable? b.format = none)
    (hreport : ∃ bytes, w.files.at? (w.files.place b.reportFile) = some (.file bytes)) :
    AgreesWithFull b w := by
  obtain ⟨w', hrun, hin', hcwd, hat⟩ := run_full_again (b := { b with isIncremental := false })
    rfl hai houtput hout hw hproject hps hin hwritable hreport
  refine ⟨out, project, w', hout, hproject, hrun, fun file hfile => ?_, hat⟩
  rw [← map_fst_pages hps] at hfile
  obtain ⟨page, hpage, rfl⟩ := mem_map.1 hfile
  have hleaf := isLeaf_of_mem houtput hps hpage
  have hplace : w'.files.place page.1 = w.files.place page.1 := by simp only [place, hcwd]
  obtain ⟨s, hs⟩ := exists_lastText (t := w.files) hpage
  refine ⟨_, hin'.find? hpage hleaf ?_, hin.find? hpage hleaf hs⟩
  rw [hplace, lastText_congr hcwd]
  exact hs

/-- **A tree with what belongs to its sources** agrees with a full build. -/
theorem Built.agreesWithFull (h : Built b out t₀ w.files) (hai : b.isAssisted = false)
    (houtput : b.output.Proper) (hout : b.excluded = .ok out) (hw : w.files.WellFormed)
    (hsame : SameSources t₀ w.files b.source out) : AgreesWithFull b w := by
  obtain ⟨project, ps, hproject, hps, hin⟩ := h.pages
  rw [project_of_sameSources h.wellFormed hw hsame] at hproject
  exact agreesWithFull_of_inPlace hai houtput hout hw hproject hps hin h.writable h.report

end Full

/-! ## Edits and builds -/

/-- An edit of source files: files with a known extension below the source folder and outside the
folder of the pages are made, changed and deleted, and new folders may be made for them. -/
structure SourceEdit (b : Build) (t t' : FileTree) : Prop where
  cwd : t'.cwd = t.cwd
  wellFormed : t'.WellFormed
  entry : ∀ loc, t'.at? loc = t.at? loc ∨ ¬ t.place b.output <+: loc ∧
    (t.at? loc = none ∧ t'.at? loc = some .folder ∨
      (∃ names, names ≠ [] ∧ loc = t.place b.source ++ names) ∧
        isSourceName (loc.getLast?.getD "") = true ∧
        t.at? loc ≠ some .folder ∧ t'.at? loc ≠ some .folder)

/-- A sequence of edits and of builds that succeed, with the trees that it goes through, and whether
one of its builds was not skipped. It starts without a folder of pages. -/
inductive History (b : Build) : List FileTree → Bool → World → Prop
  | start {w : World} : w.files.WellFormed → w.files.at? (w.files.place b.output) = none →
    History b [w.files] false w
  | edit {trees : List FileTree} {built : Bool} {w w' : World} : History b trees built w →
    SourceEdit b w.files w'.files → History b (w'.files :: trees) built w'
  | skip {trees : List FileTree} {built : Bool} {w w' : World} : History b trees built w →
    b.run.exec w = (.ok (), w') → w'.printed = w.printed ++ [skipNotice] →
    History b (w'.files :: trees) built w'
  | build {trees : List FileTree} {built : Bool} {w w' : World} : History b trees built w →
    b.run.exec w = (.ok (), w') → w'.printed ≠ w.printed ++ [skipNotice] →
    History b (w'.files :: trees) true w'

section History

variable {b : Build} {out : List String} {t₀ t t' : FileTree}

variable {loc : List String} {bytes : List UInt8} {trees : List FileTree}

theorem SourceEdit.folder (h : SourceEdit b t t') (hf : t.at? loc = some .folder) :
    t'.at? loc = some .folder := by
  rcases h.entry loc with he | ⟨-, ⟨hn, -⟩ | ⟨-, -, hn, -⟩⟩
  · exact he.trans hf
  · rw [hf] at hn; cases hn
  · exact absurd hf hn

theorem SourceEdit.file (h : SourceEdit b t t')
    (hname : isSourceName (loc.getLast?.getD "") = false)
    (hf : t.at? loc = some (.file bytes)) : t'.at? loc = some (.file bytes) := by
  rcases h.entry loc with he | ⟨-, ⟨hn, -⟩ | ⟨-, hs, -⟩⟩
  · exact he.trans hf
  · rw [hf] at hn; cases hn
  · rw [hname] at hs; cases hs

theorem SourceEdit.place_eq (h : SourceEdit b t t') (p : Path) : t'.place p = t.place p := by
  simp only [place, h.cwd]

theorem SourceEdit.find? (h : SourceEdit b t t') {p : Path}
    (hname : isSourceName ((t.place p).getLast?.getD "") = false)
    (hf : t.find? p = some (.file bytes)) : t'.find? p = some (.file bytes) := by
  obtain ⟨hg, ha⟩ := find?_eq_some.1 hf
  rw [gap?_eq_none] at hg
  refine find?_eq_some.2 ⟨gap?_eq_none.2 fun loc hl => ?_, ?_⟩
  · have hturns : t'.turns p = t.turns p := by simp only [turns, h.cwd]
    exact h.folder (hg loc (hturns ▸ hl))
  · rw [h.place_eq]
    exact h.file hname ha

theorem isSourceName_stateFile (b : Build) (t : FileTree) :
    isSourceName ((t.place b.stateFile).getLast?.getD "") = false := by
  rw [place_stateFile, List.getLast?_concat]
  decide

theorem Built.edit (h : Built b out t₀ t) (hedit : SourceEdit b t t') : Built b out t₀ t' where
  cwd := hedit.cwd.trans h.cwd
  wellFormed := h.wellFormed
  pages := by
    obtain ⟨project, ps, hproject, hps, hin⟩ := h.pages
    refine ⟨project, ps, hproject, hps, hin.kept hedit.cwd (fun _ => hedit.folder)
      fun page hpage bytes => hedit.file ?_⟩
    obtain ⟨_, _, _, -, hfile⟩ := isPage_of_mem hps hpage
    exact (isOutput_page hfile t).1
  report := by
    obtain ⟨bytes, hbytes⟩ := h.report
    exact ⟨bytes, by rw [hedit.place_eq]; exact hedit.file (isOutput_reportFile b t).1 hbytes⟩
  writable := h.writable
  state := by
    obtain ⟨v, hv, hfile⟩ := h.state
    exact ⟨v, hv, hedit.find? (isSourceName_stateFile b t) hfile⟩

theorem Built.kept (h : Built b out t₀ t) : Kept t b.stateFile := by
  obtain ⟨v, ⟨d, hv, -, hd⟩, hfile⟩ := h.state
  intro bytes hbytes
  rw [hfile] at hbytes
  refine ⟨v, d, hv, fun name hn => ?_, (Entry.file.inj (Option.some.inj hbytes)).symm⟩
  obtain ⟨f, hf, rfl⟩ := mem_map.1 (hd name hn)
  exact ⟨t₀.place f, fun _ => isName_source h.wellFormed hf, rfl⟩

/-- What every history keeps: before the first build there is no state, and after it there is what
belongs to one of the trees. -/
structure Invariant (b : Build) (trees : List FileTree) (built : Bool) (w : World) : Prop where
  wellFormed : w.files.WellFormed
  mem : w.files ∈ trees
  unbuilt : built = false → w.files.at? (w.files.place b.stateFile) = none
  built : built = true → ∃ out, b.excluded = .ok out ∧ ∃ t₀ ∈ trees, Built b out t₀ w.files

theorem Invariant.kept {built : Bool} {w : World} (h : Invariant b trees built w) :
    Kept w.files b.stateFile := by
  cases built with
  | true =>
    obtain ⟨out, -, t₀, -, hbuilt⟩ := h.built rfl
    exact hbuilt.kept
  | false =>
    intro bytes hbytes
    have hnone := h.unbuilt rfl
    rw [(find?_eq_some.1 hbytes).2] at hnone
    cases hnone

theorem at?_below_none (ht : t.WellFormed) {more : List String} (h : t.at? loc = none) :
    t.at? (loc ++ more) = none := by
  by_cases hmore : more = []
  · rw [hmore, append_nil, h]
  · cases he : t.at? (loc ++ more) with
    | none => rfl
    | some e => rw [ht.folder_above he hmore] at h; cases h

/-- **Every history keeps the invariant.** -/
theorem History.invariant (hinc : b.isIncremental = true) (hai : b.isAssisted = false)
    (houtput : b.output.Proper) {built : Bool} {w : World}
    (h : History b trees built w) : Invariant b trees built w := by
  induction h with
  | start hw hnone =>
    refine ⟨hw, mem_singleton.2 rfl, fun _ => ?_, fun hb => by cases hb⟩
    rw [place_stateFile]
    exact at?_below_none hw hnone
  | @edit trees built w w' _ hedit ih =>
    refine ⟨hedit.wellFormed, mem_cons_self, fun hb => ?_, fun hb => ?_⟩
    · have hbelow : w.files.place b.output <+: w.files.place b.stateFile := by
        rw [place_stateFile]
        exact prefix_append _ _
      rw [hedit.place_eq]
      rcases hedit.entry (w.files.place b.stateFile) with he | ⟨hn, -⟩
      · rw [he]; exact ih.unbuilt hb
      · exact absurd hbelow hn
    · obtain ⟨out, hout, t₀, ht₀, hbuilt⟩ := ih.built hb
      exact ⟨out, hout, t₀, mem_cons_of_mem _ ht₀, hbuilt.edit hedit⟩
  | @skip trees built w w' _ hrun hskip ih =>
    obtain ⟨out, hout, ⟨rfl, -⟩ | hre⟩ := run_spec hinc hai houtput ih.wellFormed ih.kept hrun
    · refine ⟨ih.wellFormed, mem_cons_self, ih.unbuilt, fun hb => ?_⟩
      obtain ⟨out, hout, t₀, ht₀, hbuilt⟩ := ih.built hb
      exact ⟨out, hout, t₀, mem_cons_of_mem _ ht₀, hbuilt⟩
    · exact absurd hskip hre.printed
  | @build trees built w w' _ hrun hbuild ih =>
    obtain ⟨out, hout, ⟨rfl, -⟩ | hre⟩ := run_spec hinc hai houtput ih.wellFormed ih.kept hrun
    · exact absurd rfl hbuild
    · exact ⟨hre.wellFormed, mem_cons_self, fun hb => (by cases hb), fun _ =>
        ⟨out, hout, w.files, mem_cons_of_mem _ ih.mem, hre.built⟩⟩

/-- What the files of a tree hold that have the name of a source. -/
def sourceContents (t : FileTree) : List (List UInt8) :=
  t.entries.filterMap fun
    | (loc, .file bytes) => if isSourceName (loc.getLast?.getD "") then some bytes else none
    | (_, .folder) => none

theorem mem_sourceContents (ht : t.WellFormed) {f : Path} {dir : Path}
    (hf : f ∈ sourceFiles t dir out) (h : t.find? f = some (.file bytes)) :
    bytes ∈ sourceContents t := by
  have ha := (find?_eq_some.1 h).2
  have hne : t.place f ≠ [] := ne_nil_of_at? (by rw [ha]; exact nofun)
  refine mem_filterMap.2 ⟨_, ht.mem_entries.2 ⟨hne, ha⟩, ?_⟩
  simp only [isSourceName_source ht hf, if_true]

/-- Where the digests of all contents differ, files are only found unchanged if they are. -/
theorem Built.sameSources
    (hdigest : ∀ x ∈ trees.flatMap sourceContents, ∀ y ∈ trees.flatMap sourceContents,
      Digest.Sha256.hexDigest x = Digest.Sha256.hexDigest y → x = y) (h : Built b out t₀ t)
    (ht : t.WellFormed) (ht₀mem : t₀ ∈ trees) (htmem : t ∈ trees)
    (hcurrent : ∀ v d, load t b.stateFile = .ok ⟨b.stateFile, v⟩ → Holds v d →
      Current t (sourceFiles t b.source out) d) :
    SameSources t₀ t b.source out := by
  obtain ⟨v, ⟨d, hv, hin, hnames⟩, hfile⟩ := h.state
  obtain ⟨hsame, hthere⟩ := hcurrent v d (load_text hv hfile) hv
  -- a file of both trees has one content if it has one digest
  have heq : ∀ {f x y}, f ∈ sourceFiles t₀ b.source out →
      f ∈ sourceFiles t b.source out → t₀.find? f = some (.file x) →
      t.find? f = some (.file y) → Digest.Sha256.hexDigest x = Digest.Sha256.hexDigest y → x = y :=
    fun hf₀ hf hx hy => hdigest _
      (mem_flatMap.2 ⟨t₀, ht₀mem, mem_sourceContents h.wellFormed hf₀ hx⟩) _
      (mem_flatMap.2 ⟨t, htmem, mem_sourceContents ht hf hy⟩)
  intro f bytes
  constructor
  · rintro ⟨hf, hbytes⟩
    have hd := hin f hf
    rw [hashFile_of_file hbytes] at hd
    obtain ⟨g, hg, hkey⟩ := mem_map.1 (hthere _ (by rw [hd]; exact Option.some_ne_none _))
    obtain rfl : f = g := eq_of_key_eq h.wellFormed ht h.cwd hf hg hkey.symm
    have hhash := hsame f hg
    rw [hkey, hd, Option.getD_some] at hhash
    obtain ⟨bytes', hbytes'⟩ := exists_file_of_hashFile
      (hhash ▸ hexDigest_ne_empty bytes)
    rw [hashFile_of_file hbytes'] at hhash
    rw [heq hf hg hbytes hbytes' hhash]
    exact ⟨hg, hbytes'⟩
  · rintro ⟨hf, hbytes⟩
    have hhash := hsame f hf
    rw [hashFile_of_file hbytes] at hhash
    have hd : d (key t f) ≠ none := fun hnone => by
      rw [hnone, Option.getD_none] at hhash
      exact hexDigest_ne_empty bytes hhash.symm
    obtain ⟨g, hg, hkey⟩ := mem_map.1 (hnames _ hd)
    obtain rfl : g = f := eq_of_key_eq h.wellFormed ht h.cwd hg hf hkey
    rw [← hkey, hin g hg, Option.getD_some] at hhash
    obtain ⟨bytes', hbytes'⟩ := exists_file_of_hashFile
      (hhash ▸ hexDigest_ne_empty bytes)
    rw [hashFile_of_file hbytes'] at hhash
    rw [← heq hg hf hbytes' hbytes hhash]
    exact ⟨hg, hbytes'⟩

/-- **Incremental builds are sound.** After every build of a history from the first on that was not
skipped, the pages are those that a full build would write. -/
theorem pages_agree_with_full_build (hinc : b.isIncremental = true) (hai : b.isAssisted = false)
    (houtput : b.output.Proper) {trees : List FileTree} {built : Bool} {w w' : World}
    (h : History b trees built w) (hrun : b.run.exec w = (.ok (), w'))
    (hbuilt : built = true ∨ w'.printed ≠ w.printed ++ [skipNotice])
    (hdigest : ∀ x ∈ trees.flatMap sourceContents, ∀ y ∈ trees.flatMap sourceContents,
      Digest.Sha256.hexDigest x = Digest.Sha256.hexDigest y → x = y) : AgreesWithFull b w' := by
  have hinv := h.invariant hinc hai houtput
  obtain ⟨out, hout, ⟨rfl, hcurrent⟩ | hre⟩ :=
    run_spec hinc hai houtput hinv.wellFormed hinv.kept hrun
  · -- skipped: the sources are those of the last build
    have hb : built = true := hbuilt.resolve_right fun hn => hn rfl
    obtain ⟨out', hout', t₀, ht₀, hb⟩ := hinv.built hb
    obtain rfl : out = out' := Except.ok.inj (hout.symm.trans hout')
    have hsame := hb.sameSources hdigest hinv.wellFormed ht₀ hinv.mem hcurrent
    exact Built.agreesWithFull (w := { w with printed := w.printed ++ [skipNotice] })
      hb hai houtput hout hinv.wellFormed hsame
  · exact hre.built.agreesWithFull hai houtput hout hre.wellFormed hre.sameSources

end History

/-! ## A build of one source -/

/-- A build with the folder of the pages inside the source folder. -/
def nestedBuild : Build where
  source := .ofString "src"
  output := .ofString "src/out"
  format := .str "markdown"
  settings := {}
  isIncremental := true
  isAssisted := false

def unbuilt : World where
  files := ⟨.ofString "/w", [(["w"], .folder), (["w", "src"], .folder),
    (["w", "src", "a.py"], .file "\"old\"\n".toUTF8.toList)]⟩

def built : World := (nestedBuild.run.exec unbuilt).2

theorem facts_unbuilt : unbuilt.files.WellFormed ∧
    unbuilt.files.at? (unbuilt.files.place nestedBuild.output) = none ∧
    unbuilt.files.find? nestedBuild.stateFile = none ∧
    (nestedBuild.run.exec unbuilt).1.isOk = true ∧
    built.printed ≠ unbuilt.printed ++ [skipNotice] := by
  decide +kernel

theorem run_unbuilt : nestedBuild.run.exec unbuilt = (.ok (), built) := by
  rw [built]
  exact exec_eq_of_isOk facts_unbuilt.2.2.2.1

theorem kept_unbuilt : Kept unbuilt.files nestedBuild.stateFile := fun bytes hbytes => by
  rw [facts_unbuilt.2.2.1] at hbytes
  cases hbytes

def edited : World :=
  { built with
    files := built.files.put ["w", "src", "a.py"] (.file "\"new\"\n".toUTF8.toList) }

theorem isOk_edited : (nestedBuild.run.exec edited).1.isOk = true := by decide +kernel

/-- A tree that differs from the one left by the build in the source at most. -/
theorem sourceEdit_built {t : FileTree} (hcwd : t.cwd = built.files.cwd) (ht : t.WellFormed)
    (hother : ∀ loc ≠ ["w", "src", "a.py"], t.at? loc = built.files.at? loc)
    (hfile : t.at? ["w", "src", "a.py"] ≠ some .folder) : SourceEdit nestedBuild built.files t := by
  obtain ⟨houtside, hplace, hbuilt⟩ :
      ¬ built.files.place nestedBuild.output <+: ["w", "src", "a.py"] ∧
      ["w", "src", "a.py"] = built.files.place nestedBuild.source ++ ["a.py"] ∧
      built.files.at? ["w", "src", "a.py"] ≠ some .folder := by decide +kernel
  refine ⟨hcwd, ht, fun loc => ?_⟩
  by_cases h : loc = ["w", "src", "a.py"]
  · subst h
    exact .inr ⟨houtside, .inr ⟨⟨["a.py"], by decide, hplace⟩, by decide, hbuilt, hfile⟩⟩
  · exact .inl (hother loc h)

theorem agreesWithFull_edited : AgreesWithFull nestedBuild (nestedBuild.run.exec edited).2 := by
  obtain ⟨hw, hnone, -, -, hprinted⟩ := facts_unbuilt
  obtain ⟨hcwd, hedited, hfile, hdigest⟩ : edited.files.cwd = built.files.cwd ∧
      edited.files.WellFormed ∧ edited.files.at? ["w", "src", "a.py"] ≠ some .folder ∧
      ∀ x ∈ [edited.files, built.files, unbuilt.files].flatMap sourceContents,
        ∀ y ∈ [edited.files, built.files, unbuilt.files].flatMap sourceContents,
          Digest.Sha256.hexDigest x = Digest.Sha256.hexDigest y → x = y := by decide +kernel
  have hedit : SourceEdit nestedBuild built.files edited.files :=
    sourceEdit_built hcwd hedited (fun _ h => FileTree.at?_put_other _ _ h) hfile
  have hhistory : History nestedBuild [edited.files, built.files, unbuilt.files] true edited :=
    .edit (.build (.start hw hnone) run_unbuilt hprinted) hedit
  exact pages_agree_with_full_build rfl rfl (Path.proper_ofString _) hhistory
    (exec_eq_of_isOk isOk_edited) (.inl rfl) hdigest

end Docsmith.Build
