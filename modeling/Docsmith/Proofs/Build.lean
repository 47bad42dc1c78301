/-
What a build does to the files. `finish_ok` and `run_incremental_ok` take a successful build apart
into its steps; `Built` says what one that was not skipped leaves behind, and `run_spec` that it
does.
-/
import Docsmith.Build
import Docsmith.Proofs.Project
import Docsmith.Proofs.Site
import Docsmith.Proofs.Snapshot

namespace Docsmith.Build

open Action FileTree Page Project Snapshot Snapshot.Holds

def stateFile (b : Build) : Path := b.output / fileName

def reportFile (b : Build) : Path := b.output / Report.fileName

def skipNotice : Notice := .text "[dim]No changes detected -- skipping rebuild.[/dim]"

/-! ## The steps of a build -/

def finalReport (s : Start) (count : Nat) : Report :=
  let changes : List Change := s.report.changes ++ deprecated s.project
  { s.report with
    changes
    deprecatedCount := (changes.filter fun (c : Change) => c.action == "deprecated").length
    modules := s.project.moduleCount
    functions := s.project.functionCount
    classes := s.project.typeCount
    filesGenerated := count }

theorem exec_forM_notify (ns : List Notice) (w : World) :
    (ns.forM notify).exec w = (.ok (), { w with printed := w.printed ++ ns }) := by
  induction ns generalizing w with
  | nil => simp [exec_pure]
  | cons n ns ih =>
    rw [List.forM, exec_bind, exec_notify]
    simp only [ih, List.append_assoc, List.singleton_append]

theorem finish_ok {b : Build} {s : Start} {w w' : World} :
    (b.finish s).exec w = (.ok (), w') ↔
      ∃ t₁ ps t₂ text t₃, w.files.makeFolders b.output = .ok t₁ ∧
        pages (.ofValue b.format) s.project b.output = .ok ps ∧
        writePages t₁ ps = .ok t₂ ∧ (finalReport s ps.length).text? = .ok text ∧
        t₂.writeText b.reportFile text = .ok t₃ ∧
        w' = { w with
          files := t₃
          printed := w.printed ++ (finalReport s ps.length).notices } := by
  simp only [finish, exec_bind_ok, exec_makeFolders_ok, exec_writeText_ok,
    writeSite_ok, exec_ofExcept, exec_forM_notify, Prod.mk.injEq, true_and]
  constructor
  · rintro ⟨-, _, ⟨t₁, h₁, rfl⟩, _, _, ⟨ps, t₂, hps, h₂, rfl, rfl⟩, text, _, ⟨htext, rfl⟩, -, _,
      ⟨t₃, h₃, rfl⟩, rfl⟩
    rw [List.length_map] at htext
    refine ⟨t₁, ps, t₂, text, t₃, h₁, hps, h₂, htext, h₃, ?_⟩
    rw [List.length_map]
    rfl
  · rintro ⟨t₁, ps, t₂, text, t₃, h₁, hps, h₂, htext, h₃, rfl⟩
    refine ⟨(), _, ⟨t₁, h₁, rfl⟩, ps.map Prod.fst, _, ⟨ps, t₂, hps, h₂, rfl, rfl⟩, text, _,
      ⟨?_, rfl⟩, (), _, ⟨t₃, h₃, rfl⟩, ?_⟩
    · rw [List.length_map]; exact htext
    · rw [List.length_map]; rfl

variable {w w' : World} {b : Build} {out : List String}

theorem save_ok {s : Snapshot} {u : Unit} : s.save.exec w = (.ok u, w') ↔
      ∃ t, writePage w.files (s.path, s.text) = .ok t ∧ w' = { w with files := t } := by
  simp only [save, writePage, exec_bind_ok, exec_makeFolders_ok,
    exec_writeText_ok, Except.bind_ok_iff]
  constructor
  · rintro ⟨-, _, ⟨t₁, h₁, rfl⟩, t, ht, rfl⟩
    exact ⟨t, ⟨t₁, h₁, ht⟩, rfl⟩
  · rintro ⟨t, ⟨t₁, h₁, ht⟩, rfl⟩
    exact ⟨(), _, ⟨t₁, h₁, rfl⟩, t, ht, rfl⟩

theorem path_not_mem_keys (state : Snapshot) (p : Path) : Key.path p ∉ keys state := by
  simp [keys]

/-- A path is among no keys, so that no file is found to have been there. -/
theorem changedFile_eq (state : Snapshot) (p : Path) :
    changedFile state p = ⟨p.stem, p.stem, "file", "added", 0⟩ := by
  simp [changedFile, path_not_mem_keys]

def startReport (b : Build) (state : Snapshot) (files : List Path) (diff : Diff) : Report :=
  { b.emptyReport with
    filesScanned := files.length + diff.deleted.length
    filesChanged := diff.changed.length
    filesUnchanged := diff.unchanged.length
    filesDeleted := diff.deleted.length
    changes := diff.changed.map (changedFile state) ++ removedFiles diff.deleted }

def startChanged (b : Build) (out : List String) (state : Snapshot)
    (files : List Path) (diff : Diff) : Action (Option Start) := do
  let project ← ofFiles (b.project out)
  let updated ← ofFiles fun tree => do
    let state ← state.updateAll tree files
    state.removeAll tree diff.deleted
  updated.save
  pure (some ⟨diff.changed, project, b.startReport state files diff⟩)

theorem exec_startIncremental {state : Snapshot} {diff : Diff}
    (hload : load w.files b.stateFile = .ok state)
    (hdiff : state.diff w.files (sourceFiles w.files b.source out) = .ok diff) :
    (b.startIncremental out).exec w =
      if diff.changed.isEmpty && diff.deleted.isEmpty then
        (.ok none, { w with printed := w.printed ++ [skipNotice] }) else
        (b.startChanged out state (sourceFiles w.files b.source out) diff).exec w := by
  have hread : (load w.files (b.output / fileName) >>= fun state =>
      state.diff w.files (sourceFiles w.files b.source out) >>= fun diff =>
        pure (state, sourceFiles w.files b.source out, diff)) =
      .ok (state, sourceFiles w.files b.source out, diff) :=
    Except.bind_ok_iff.2 ⟨state, hload, Except.bind_ok_iff.2 ⟨diff, hdiff, rfl⟩⟩
  rw [startIncremental, exec_bind, exec_ofFiles, hread]
  simp only
  split
  · rfl
  · rfl

theorem startChanged_ok {state : Snapshot} {files : List Path} {diff : Diff}
    {start : Option Start} : (b.startChanged out state files diff).exec w = (.ok start, w') ↔
      ∃ project state' t, b.project out w.files = .ok project ∧
        (state.updateAll w.files files >>= fun s => s.removeAll w.files diff.deleted) = .ok state' ∧
        writePage w.files (state'.path, state'.text) = .ok t ∧ w' = { w with files := t } ∧
        start = some ⟨diff.changed, project, b.startReport state files diff⟩ := by
  simp only [startChanged, exec_bind_ok, exec_ofFiles, save_ok, exec_pure,
    Prod.mk.injEq, Except.ok.injEq]
  constructor
  · rintro ⟨project, _, ⟨hproject, rfl⟩, state', _, ⟨hstate, rfl⟩, -, _, ⟨t, ht, rfl⟩, rfl, rfl⟩
    exact ⟨project, state', t, hproject, hstate, ht, rfl, rfl⟩
  · rintro ⟨project, state', t, hproject, hstate, ht, rfl, rfl⟩
    exact ⟨project, _, ⟨hproject, rfl⟩, state', _, ⟨hstate, rfl⟩, (), _, ⟨t, ht, rfl⟩, rfl, rfl⟩

/-- What a build starts from after the assistant, if it is asked to, has filled gaps. -/
def assisted (b : Build) (out : List String) (s : Start) : Action Start :=
  if b.isAssisted then b.assist out s else pure s

/-- What a build does after it has started. -/
def proceed (b : Build) (out : List String) (s : Start) : Action Unit :=
  b.assisted out s >>= b.finish

theorem proceed_eq_finish (hai : b.isAssisted = false) (out : List String) (s : Start) :
    b.proceed out s = b.finish s := by
  rw [proceed, assisted, hai]
  rfl

/-- The start of a build, if it has something to do. -/
def start (b : Build) (out : List String) : Action (Option Start) :=
  if b.isIncremental then b.startIncremental out else some <$> b.startFull out

theorem run_eq_start (b : Build) :
    b.run = ofExcept b.excluded >>= fun out =>
      b.start out >>= fun start => start.elim (pure ()) (b.proceed out) := by
  refine bind_congr fun out => ?_
  have hrest : ∀ s, (if b.isAssisted then b.assist out s >>= b.finish else pure s >>= b.finish) =
      b.proceed out s := fun s => by
    rw [proceed, assisted]
    split <;> rfl
  rw [start]
  dsimp only
  split
  all_goals
    refine bind_congr fun start => ?_
    cases start with
    | none => rfl
    | some s => exact hrest s

theorem run_ok_start : b.run.exec w = (.ok (), w') ↔ ∃ out, b.excluded = .ok out ∧
      ((b.start out).exec w = (.ok none, w') ∨
        ∃ s w₁, (b.start out).exec w = (.ok (some s), w₁) ∧
          (b.proceed out s).exec w₁ = (.ok (), w')) := by
  simp only [run_eq_start, exec_bind_ok, exec_ofExcept, Prod.mk.injEq]
  constructor
  · rintro ⟨out, _, ⟨hout, rfl⟩, start, w₁, hstart, hrest⟩
    refine ⟨out, hout, ?_⟩
    cases start with
    | none =>
      rw [Option.elim_none, exec_pure, Prod.mk.injEq] at hrest
      exact .inl (hrest.2 ▸ hstart)
    | some s => exact .inr ⟨s, w₁, hstart, hrest⟩
  · rintro ⟨out, hout, hstart | ⟨s, w₁, hstart, hproceed⟩⟩
    · exact ⟨out, w, ⟨hout, rfl⟩, none, w', hstart, rfl⟩
    · exact ⟨out, w, ⟨hout, rfl⟩, some s, w₁, hstart, hproceed⟩

theorem start_incremental (hinc : b.isIncremental = true) (out : List String) :
    b.start out = b.startIncremental out := if_pos hinc

theorem run_eq (hinc : b.isIncremental = true) : b.run = ofExcept b.excluded >>= fun out =>
      b.startIncremental out >>= fun start => start.elim (pure ()) (b.proceed out) := by
  simp only [run_eq_start, start_incremental hinc]

theorem run_ok (hinc : b.isIncremental = true) :
    b.run.exec w = (.ok (), w') ↔ ∃ out, b.excluded = .ok out ∧
      ((b.startIncremental out).exec w = (.ok none, w') ∨
        ∃ s w₁, (b.startIncremental out).exec w = (.ok (some s), w₁) ∧
          (b.proceed out s).exec w₁ = (.ok (), w')) := by
  simp only [run_ok_start, start_incremental hinc]

theorem run_incremental_ok (hinc : b.isIncremental = true) (hai : b.isAssisted = false) :
    b.run.exec w = (.ok (), w') ↔ ∃ out, b.excluded = .ok out ∧
      ((b.startIncremental out).exec w = (.ok none, w') ∨
        ∃ s w₁, (b.startIncremental out).exec w = (.ok (some s), w₁) ∧
          (b.finish s).exec w₁ = (.ok (), w')) := by
  simp only [run_ok hinc, proceed_eq_finish hai]

def fullStart (b : Build) (files : List Path) (project : ProjectDoc) : Start :=
  ⟨files, project,
    { b.emptyReport with filesScanned := files.length, filesChanged := files.length }⟩

theorem start_full_ok (hinc : b.isIncremental = false) {start : Option Start} :
    (b.start out).exec w = (.ok start, w') ↔ w' = w ∧ ∃ project,
      b.project out w.files = .ok project ∧
      start = some (b.fullStart (sourceFiles w.files b.source out) project) := by
  rw [Build.start, if_neg (by rw [hinc]; exact Bool.false_ne_true), exec_map_ok]
  simp only [startFull, exec_ofFiles, Prod.mk.injEq, Except.bind_ok_iff, Except.pure_ok_iff]
  constructor
  · rintro ⟨s, ⟨⟨project, hproject, rfl⟩, rfl⟩, rfl⟩
    exact ⟨rfl, project, hproject, rfl⟩
  · rintro ⟨rfl, project, hproject, rfl⟩
    exact ⟨_, ⟨⟨project, hproject, rfl⟩, rfl⟩, rfl⟩

theorem run_full_ok (hinc : b.isIncremental = false) (hai : b.isAssisted = false) :
    b.run.exec w = (.ok (), w') ↔ ∃ out project, b.excluded = .ok out ∧
      b.project out w.files = .ok project ∧
      (b.finish (b.fullStart (sourceFiles w.files b.source out) project)).exec w =
        (.ok (), w') := by
  simp only [run_ok_start, start_full_ok hinc, proceed_eq_finish hai]
  constructor
  · rintro ⟨out, hout, ⟨-, _, -, hnone⟩ | ⟨s, _, ⟨rfl, project, hproject, hs⟩, hfinish⟩⟩
    · cases hnone
    · obtain rfl := Option.some.inj hs
      exact ⟨out, project, hout, hproject, hfinish⟩
  · rintro ⟨out, project, hout, hproject, hfinish⟩
    exact ⟨out, hout, .inr ⟨_, w, ⟨rfl, project, hproject, rfl⟩, hfinish⟩⟩

/-! ## Names of written files -/

theorem stateFile_eq (b : Build) :
    b.stateFile = ⟨b.output.root, b.output.parts ++ [fileName]⟩ := rfl

theorem reportFile_eq (b : Build) :
    b.reportFile = ⟨b.output.root, b.output.parts ++ [Report.fileName]⟩ := rfl

theorem isLeaf_append {p : Path} (hp : p.Proper) {name : String} (hname : Path.IsName name) :
    IsLeaf ⟨p.root, p.parts ++ [name]⟩ where
  proper part hpart := by
    rcases List.mem_append.1 hpart with hpart | hpart
    · exact hp part hpart
    · rw [List.mem_singleton.1 hpart]
      exact .inr hname
  ends := ⟨name, by simp, hname.ne_dots⟩

theorem isLeaf_stateFile (hout : b.output.Proper) : IsLeaf b.stateFile :=
  isLeaf_append hout ⟨by decide, by decide, by decide, by decide⟩

theorem isLeaf_reportFile (hout : b.output.Proper) : IsLeaf b.reportFile :=
  isLeaf_append hout ⟨by decide, by decide, by decide, by decide⟩

theorem place_stateFile (b : Build) (t : FileTree) :
    t.place b.stateFile = t.place b.output ++ [fileName] := by
  rw [stateFile_eq, t.place_append b.output (by simp [fileName])]

theorem place_reportFile (b : Build) (t : FileTree) :
    t.place b.reportFile = t.place b.output ++ [Report.fileName] := by
  rw [reportFile_eq, t.place_append b.output (by simp [Report.fileName])]

/-- A place whose name is neither that of a source file nor that of a state. -/
def IsOutput (loc : List String) : Prop :=
  isSourceName (loc.getLast?.getD "") = false ∧ loc.getLast? ≠ some fileName

theorem isSourceName_of_ends {ext name : String} (hext : ext ∈ [".md", ".html", ".json"])
    (h : ext.toList <:+ name.toList) : isSourceName name = false := by
  have hapart : ∀ e ∈ Language.allExtensions, ∀ x ∈ [".md", ".html", ".json"],
      ¬ e.toList <:+ x.toList ∧ ¬ x.toList <:+ e.toList := by decide
  rw [isSourceName, List.any_eq_false]
  intro e he hsuffix
  rcases List.suffix_or_suffix_of_suffix (List.isSuffixOf_iff_suffix.1 hsuffix) h with hs | hs
  · exact (hapart e he ext hext).1 hs
  · exact (hapart e he ext hext).2 hs

theorem isOutput_page {f : Format} {base file : Path} {folders : List String} {last : String}
    (h : IsPage f.extension base folders last file) (t : FileTree) :
    IsOutput (t.place file) := by
  have hends := h.ends
  rw [h.place t, IsOutput, ← List.append_assoc, List.getLast?_concat, Option.getD_some]
  refine ⟨isSourceName_of_ends ?_ hends, fun he => ?_⟩
  · cases f <;> decide
  · rw [Option.some.inj he] at hends
    cases f <;> exact absurd hends (by decide)

theorem place_page_ne {p : ProjectDoc} {ps : List (Path × String)}
    (h : pages (.ofValue b.format) p b.output = .ok ps) {page : Path × String}
    (hpage : page ∈ ps) (t : FileTree) : t.place page.1 ≠ t.place b.reportFile := by
  intro hplace
  obtain ⟨base, folders, last, -, hfile⟩ := isPage_of_mem h hpage
  have hends := hfile.ends
  rw [hfile.place, place_reportFile, ← List.append_assoc] at hplace
  have hlast : last = Report.fileName := (List.cons.inj (List.append_inj' hplace rfl).2).1
  rw [hlast] at hends
  revert hends
  cases Format.ofValue b.format <;> decide

theorem isOutput_reportFile (b : Build) (t : FileTree) : IsOutput (t.place b.reportFile) := by
  rw [place_reportFile, IsOutput, List.getLast?_concat]
  decide

/-! ## What a build leaves behind -/

/-- A tree with the pages, the report and the state of a build of the sources in `t₀`. -/
structure Built (b : Build) (out : List String) (t₀ t : FileTree) : Prop where
  cwd : t.cwd = t₀.cwd
  wellFormed : t₀.WellFormed
  pages : ∃ project ps, b.project out t₀ = .ok project ∧
    pages (.ofValue b.format) project b.output = .ok ps ∧ InPlace t ps
  report : ∃ bytes, t.at? (t.place b.reportFile) = some (.file bytes)
  writable : Report.unwritable? b.format = none
  state : ∃ v, Describes t₀ (sourceFiles t₀ b.source out) v ∧
    t.find? b.stateFile = some (.file (text ⟨b.stateFile, v⟩).toUTF8.toList)

theorem text?_ok {r : Report} {text : String} :
    r.text? = .ok text ↔ Report.unwritable? r.format = none ∧ r.text = text := by
  rw [Report.text?]
  split
  next h => simp [h]
  next h => simp [h]

theorem finish_spec {s : Start} (hw : w.files.WellFormed) (hout : b.output.Proper)
    (h : (b.finish s).exec w = (.ok (), w')) :
    ∃ ps, pages (.ofValue b.format) s.project b.output = .ok ps ∧ w'.files.WellFormed ∧
      Grown (fun loc => loc = w.files.place b.reportFile ∨
          ∃ page ∈ ps, loc = w.files.place page.1) (fun loc => w.files.MadeFor b.output loc ∨
          ∃ page ∈ ps, w.files.MadeFor page.1.parent loc) w.files w'.files ∧
      InPlace w'.files ps ∧
      w'.files.at? (w'.files.place b.reportFile) =
        some (.file (finalReport s ps.length).text.toUTF8.toList) ∧
      Report.unwritable? s.report.format = none ∧
      ∀ before, w'.printed ≠ before ++ [skipNotice] := by
  obtain ⟨t₁, ps, t₂, text, t₃, h₁, hps, h₂, htext, h₃, rfl⟩ := finish_ok.1 h
  have hleaf := isLeaf_reportFile hout
  obtain ⟨hg₁, -, hw₁⟩ := makeFolders_spec hw hout h₁
  obtain ⟨hw₂, hg₂, hin₂⟩ :=
    writePages_spec hw₁ (fun page hpage => isLeaf_of_mem hout hps hpage) h₂
  have hg₃ : Grown (· = t₂.place b.reportFile) (fun _ => False) t₂ t₃ :=
    grown_of_writeBytes hw₂ rfl h₃
  have hreport : t₃.at? (t₃.place b.reportFile) = some (.file text.toUTF8.toList) := by
    rw [hg₃.place_eq]
    obtain ⟨rfl, -, hn, -⟩ := writeBytes_ok hw₂ h₃
    exact at?_put_self t₂ _ (ne_nil_of_at? hn)
  refine ⟨ps, hps, hw₂.writeBytes hleaf.proper h₃, .trans (hg₁.mono ?_ ?_)
    (.trans (hg₂.mono ?_ ?_) (hg₃.mono ?_ ?_)), ?_, (text?_ok.1 htext).2 ▸ hreport,
    (text?_ok.1 htext).1, fun before he => ?_⟩
  · exact fun _ => False.elim
  · exact fun loc hloc => .inl hloc
  · rintro loc ⟨page, hpage, rfl⟩
    exact .inr ⟨page, hpage, hg₁.place_eq _⟩
  · rintro loc ⟨page, hpage, hloc⟩
    exact .inr ⟨page, hpage, hg₁.madeFor hloc⟩
  · rintro loc rfl
    exact .inl ((hg₂.place_eq _).trans (hg₁.place_eq _))
  · exact fun _ => False.elim
  · exact hin₂.kept hg₃.cwd (fun _ => hg₃.folder) fun page hpage bytes hbytes =>
      hg₃.kept (place_page_ne hps hpage t₂) hbytes
  · -- the report is printed last
    simp only [Report.notices, ← List.append_assoc] at he
    cases (List.append_inj' he rfl).2

theorem isOutput_written {p : ProjectDoc} {ps : List (Path × String)}
    (hps : pages (.ofValue b.format) p b.output = .ok ps) {t : FileTree} {loc : List String}
    (h : loc = t.place b.reportFile ∨ ∃ page ∈ ps, loc = t.place page.1) : IsOutput loc := by
  rcases h with rfl | ⟨page, hpage, rfl⟩
  · exact isOutput_reportFile b t
  · obtain ⟨_, _, _, -, hfile⟩ := isPage_of_mem hps hpage
    exact isOutput_page hfile t

/-! ## What a run does -/

section Run

variable {b : Build} {out : List String} {w w' : World}

variable {t : FileTree} {v : Value} {d : String → Option String} {s : Start} {w₁ : World}

theorem project_of_sameSources {t' : FileTree} (ht : t.WellFormed) (ht' : t'.WellFormed)
    (h : SameSources t t' b.source out) : b.project out t = b.project out t' := by
  rw [project, project, ofAll_congr ht ht' h]

theorem eq_of_key_eq {t' : FileTree} (ht : t.WellFormed) (ht' : t'.WellFormed)
    (hcwd : t'.cwd = t.cwd) {dir f g : Path} {out' : List String}
    (hf : f ∈ sourceFiles t dir out) (hg : g ∈ sourceFiles t' dir out')
    (h : key t f = key t' g) : f = g := by
  rw [key_eq, key_eq] at h
  exact eq_of_place_eq ht ht' hcwd hf hg (Path.text_ofPlace_inj
    (fun _ => isName_source ht hf) (fun _ => isName_source ht' hg) h)

theorem consistent_sourceFiles (ht : t.WellFormed) (dir : Path) (out : List String) :
    Consistent t (sourceFiles t dir out) := by
  intro f hf g hg h
  rw [eq_of_key_eq ht ht rfl hf hg h]

theorem exists_diff (hkept : Kept w.files b.stateFile) (files : List Path) :
    ∃ v d diff, Holds v d ∧ Named d ∧
      load w.files b.stateFile = .ok ⟨b.stateFile, v⟩ ∧
      (∀ name, d name ≠ none → ∃ bytes, w.files.find? b.stateFile = some (.file bytes)) ∧
      Snapshot.diff ⟨b.stateFile, v⟩ w.files files = .ok diff := by
  obtain ⟨v, d, hv, hd, hload, hfile⟩ := hkept.load
  obtain ⟨diff, hdiff, -⟩ := diff (s := ⟨b.stateFile, v⟩) w.files hv files
  exact ⟨v, d, diff, hv, hd, hload, hfile, hdiff⟩

theorem startIncremental_of_current
    (hload : load w.files b.stateFile = .ok ⟨b.stateFile, v⟩) (hv : Holds v d)
    (hcurrent : Current w.files (sourceFiles w.files b.source out) d) :
    (b.startIncremental out).exec w =
      (.ok none, { w with printed := w.printed ++ [skipNotice] }) := by
  obtain ⟨diff, hdiff, -⟩ :=
    diff (s := ⟨b.stateFile, v⟩) w.files hv
      (sourceFiles w.files b.source out)
  rw [exec_startIncremental hload hdiff]
  rw [if_pos ((current_iff (s := ⟨b.stateFile, v⟩) hv hdiff).2 hcurrent)]

theorem run_skips (hinc : b.isIncremental = true) (hai : b.isAssisted = false)
    (hout : b.excluded = .ok out)
    (hload : load w.files b.stateFile = .ok ⟨b.stateFile, v⟩) (hv : Holds v d)
    (hcurrent : Current w.files (sourceFiles w.files b.source out) d) :
    b.run.exec w = (.ok (), { w with printed := w.printed ++ [skipNotice] }) :=
  (run_incremental_ok hinc hai).2
    ⟨out, hout, .inl (startIncremental_of_current hload hv hcurrent)⟩

theorem not_madeFor {p : Path} (h : t.isFolder p = true) (loc : List String) :
    ¬ t.MadeFor p loc := by
  rintro ⟨hf, -⟩
  rw [h] at hf
  cases hf

theorem parent_stateFile (b : Build) : b.stateFile.parent = b.output := by
  rw [stateFile_eq, Path.parent_append]

/-- What a build that found changes does with the files. -/
structure Rebuilds (b : Build) (out : List String) (w w' : World) : Prop where
  built : Built b out w.files w'.files
  wellFormed : w'.files.WellFormed
  grown : Grown (fun loc => isSourceName (loc.getLast?.getD "") = false) (fun _ => True)
    w.files w'.files
  source : w'.files.isFolder b.source = true → w.files.isFolder b.source = true
  printed : w'.printed ≠ w.printed ++ [skipNotice]

theorem modules_of_not_isFolder {project : ProjectDoc} (hproject : b.project out t = .ok project)
    (hsource : t.isFolder b.source = false) : project.modules = [] := by
  rw [Build.project, ofAll, read_of_not_isFolder _ _ hsource] at hproject
  rw [← Except.ok.inj hproject]

section Changes

variable (hw : w.files.WellFormed)
  (hfile : ∀ name, d name ≠ none → ∃ bytes, w.files.find? b.stateFile = some (.file bytes))
  (hchanged : ¬ Current w.files (sourceFiles w.files b.source out) d)

include hw hfile hchanged

/-- If files have changed although there are no sources, then files that are gone are recorded. -/
theorem exists_state_file (hsource : w.files.isFolder b.source = false) :
    ∃ bytes, w.files.find? b.stateFile = some (.file bytes) := by
  have hnone : ∀ f, f ∉ sourceFiles w.files b.source out := fun f hf => by
    rw [((mem_sourceFiles hw).1 hf).1] at hsource
    cases hsource
  have hd : ∃ name, d name ≠ none := Classical.byContradiction fun hd => hchanged
    ⟨fun f hf => absurd hf (hnone f), fun name hn => absurd ⟨name, hn⟩ hd⟩
  obtain ⟨name, hname⟩ := hd
  exact hfile name hname

variable (houtput : b.output.Proper)

include houtput

theorem isFolder_output (hsource : w.files.isFolder b.source = false) :
    w.files.isFolder b.output = true := by
  obtain ⟨bytes, hbytes⟩ := exists_state_file hw hfile hchanged hsource
  rw [← parent_stateFile]
  exact (isLeaf_stateFile houtput).isFolder_parent hw hbytes

theorem rebuilds_of_changes (hproject : b.project out w.files = .ok s.project)
    (hv : Describes w.files (sourceFiles w.files b.source out) v)
    (ht : writePage w.files (b.stateFile, text ⟨b.stateFile, v⟩) = .ok t)
    (hformat : s.report.format = b.format)
    (hfinish : (b.finish s).exec { w with files := t } = (.ok (), w')) : Rebuilds b out w w' := by
  have hleaf := isLeaf_stateFile houtput
  obtain ⟨hwt, hgt, hfolder, htext⟩ := writePage_spec hw hleaf ht
  obtain ⟨ps, hps, hw', hg', hin, hfile', hwritable, hprinted⟩ :=
    finish_spec (w := { w with files := t }) hwt houtput hfinish
  rw [hformat] at hwritable
  -- the rest of the build leaves the state alone
  have hstate : w'.files.find? b.stateFile =
      some (.file (text ⟨b.stateFile, v⟩).toUTF8.toList) := by
    refine hg'.find? (fun hname => (isOutput_written hps hname).2 ?_)
      (find?_eq_some.2 ⟨?_, hgt.place_eq _ ▸ htext⟩)
    · rw [place_stateFile, List.getLast?_concat]
    · rw [hleaf.gap?_parent]
      exact (isFolder_iff.1 hfolder).1
  refine ⟨⟨hg'.cwd.trans hgt.cwd, hw, ⟨s.project, ps, hproject, hps, hin⟩,
      ⟨_, hfile'⟩, hwritable, v, hv, hstate⟩,
    hw', .trans (hgt.mono ?_ fun _ _ => trivial) (hg'.mono ?_ fun _ _ => trivial),
    fun hsource' => ?_, hprinted _⟩
  · rintro loc rfl
    rw [place_stateFile, List.getLast?_concat]
    decide
  · exact fun loc hloc => (isOutput_written hps hloc).1
  · cases hsource : w.files.isFolder b.source with
    | true => rfl
    | false =>
      -- no sources: the pages are the index, and the folder for it is there
      have houtputs := isFolder_output hw hfile hchanged houtput hsource
      have hmodules := modules_of_not_isFolder hproject hsource
      rw [pages, hmodules] at hps
      obtain rfl := Except.ok.inj hps
      have hback := hg'.isFolder_back (fun loc => ?_) hsource'
      · rw [← hsource]
        refine hgt.isFolder_back (fun loc hloc => not_madeFor houtputs loc ?_) hback
        rwa [parent_stateFile] at hloc
      · have houtputs' : t.isFolder b.output = true := hgt.isFolder houtputs
        rintro (hloc | ⟨page, hpage, hloc⟩)
        · exact not_madeFor houtputs' loc hloc
        · rw [List.mem_singleton.1 hpage, parent_indexFile] at hloc
          exact not_madeFor houtputs' loc hloc

end Changes

/-- A build that has nothing to do says so: the state is that of the sources. -/
theorem startIncremental_none (hkept : Kept w.files b.stateFile)
    (h : (b.startIncremental out).exec w = (.ok none, w')) :
    w' = { w with printed := w.printed ++ [skipNotice] } ∧
      ∀ v d, load w.files b.stateFile = .ok ⟨b.stateFile, v⟩ → Holds v d →
        Current w.files (sourceFiles w.files b.source out) d := by
  obtain ⟨v, d, diff, hv, hd, hload, hfile, hdiff⟩ :=
    exists_diff hkept (sourceFiles w.files b.source out)
  rw [exec_startIncremental hload hdiff] at h
  split at h
  next hnone =>
    refine ⟨(Prod.mk.inj h).2.symm, fun v' d' hload' hv' => ?_⟩
    obtain rfl : v = v' := by
      rw [hload] at hload'
      exact (Snapshot.mk.inj (Except.ok.inj hload')).2
    exact (current_iff (s := ⟨b.stateFile, v⟩) hv' hdiff).1 hnone
  next =>
    obtain ⟨_, _, _, _, _, _, _, hnone⟩ := startChanged_ok.1 h
    cases hnone

/-- A build that has something to do saves the state of the sources before it goes on. -/
theorem startIncremental_some (hw : w.files.WellFormed) (hkept : Kept w.files b.stateFile)
    (h : (b.startIncremental out).exec w = (.ok (some s), w₁)) :
    ∃ v d v' t, Holds v d ∧
      load w.files b.stateFile = .ok ⟨b.stateFile, v⟩ ∧
      (∀ name, d name ≠ none → ∃ bytes, w.files.find? b.stateFile = some (.file bytes)) ∧
      ¬ Current w.files (sourceFiles w.files b.source out) d ∧
      Describes w.files (sourceFiles w.files b.source out) v' ∧
      writePage w.files (b.stateFile, text ⟨b.stateFile, v'⟩) = .ok t ∧
      w₁ = { w with files := t } ∧ b.project out w.files = .ok s.project ∧
      (∀ p ∈ s.targets, p ∈ sourceFiles w.files b.source out) ∧
      s.report.format = b.format := by
  obtain ⟨v, d, hv, hd, hload, hfile⟩ := hkept.load
  obtain ⟨diff, hdiff, hmem, -⟩ := diff (s := ⟨b.stateFile, v⟩) w.files hv
    (sourceFiles w.files b.source out)
  obtain ⟨v', hv', hdescribes⟩ := describes_of_diff (s := ⟨b.stateFile, v⟩) hv hd
    (consistent_sourceFiles hw b.source out) hdiff
  rw [exec_startIncremental hload hdiff] at h
  split at h
  next => cases h
  next hskip =>
    obtain ⟨project, state', t, hproject, hstate, ht, rfl, hs⟩ := startChanged_ok.1 h
    obtain rfl := Option.some.inj hs
    obtain rfl : ⟨b.stateFile, v'⟩ = state' := Except.ok.inj (hv'.symm.trans hstate)
    exact ⟨v, d, v', t, hv, hload, hfile,
      fun hc => hskip ((current_iff (s := ⟨b.stateFile, v⟩) hv hdiff).2 hc),
      hdescribes, ht, rfl, hproject, fun p hp => ((hmem p).1 hp).1, rfl⟩

/-- An incremental build that gets through its start has compared a state with the files, whatever
that state was. -/
theorem startIncremental_ok {start : Option Start}
    (h : (b.startIncremental out).exec w = (.ok start, w₁)) :
    ∃ state diff, load w.files b.stateFile = .ok state ∧
      state.diff w.files (sourceFiles w.files b.source out) = .ok diff ∧
      (start = none ∧ w₁ = { w with printed := w.printed ++ [skipNotice] } ∨
        (b.startChanged out state (sourceFiles w.files b.source out) diff).exec w =
          (.ok start, w₁)) := by
  have hread := h
  rw [startIncremental] at hread
  obtain ⟨_, _, hread, -⟩ := exec_bind_ok.1 hread
  rw [exec_ofFiles] at hread
  obtain ⟨state, hload, hrest⟩ := Except.bind_ok_iff.1 (Prod.mk.inj hread).1
  obtain ⟨diff, hdiff, -⟩ := Except.bind_ok_iff.1 hrest
  refine ⟨state, diff, hload, hdiff, ?_⟩
  rw [exec_startIncremental hload hdiff] at h
  split at h
  · cases h
    exact .inl ⟨rfl, rfl⟩
  · exact .inr h

theorem start_none (h : (b.start out).exec w = (.ok none, w')) :
    b.isIncremental = true ∧ w' = { w with printed := w.printed ++ [skipNotice] } := by
  cases hinc : b.isIncremental with
  | true =>
    rw [start_incremental hinc] at h
    obtain ⟨_, _, -, -, ⟨-, hw'⟩ | h⟩ := startIncremental_ok h
    · exact ⟨rfl, hw'⟩
    · obtain ⟨_, _, _, -, -, -, -, hnone⟩ := startChanged_ok.1 h
      cases hnone
  | false =>
    obtain ⟨-, _, -, hnone⟩ := (start_full_ok hinc).1 h
    cases hnone

/-- A build that has something to do has read the sources, and written the state at most. -/
theorem start_some (houtput : b.output.Proper) (hw : w.files.WellFormed)
    (h : (b.start out).exec w = (.ok (some s), w₁)) : w₁.files.WellFormed ∧
      Grown (· = w.files.place b.stateFile) (fun _ => True) w.files w₁.files ∧
      b.project out w.files = .ok s.project ∧
      ∀ p ∈ s.targets, p ∈ sourceFiles w.files b.source out := by
  cases hinc : b.isIncremental with
  | true =>
    rw [start_incremental hinc] at h
    obtain ⟨state, diff, hload, hdiff, ⟨hnone, -⟩ | h⟩ := startIncremental_ok h
    · cases hnone
    · obtain ⟨project, state', t, hproject, hstate, ht, rfl, hs⟩ := startChanged_ok.1 h
      obtain rfl := Option.some.inj hs
      rw [(path_of_update hstate).trans (path_of_load hload)] at ht
      obtain ⟨hwt, hgt, -, -⟩ := writePage_spec hw (isLeaf_stateFile houtput) ht
      exact ⟨hwt, hgt.mono (fun _ h => h) fun _ _ => trivial, hproject,
        fun p hp => mem_of_changed hdiff hp⟩
  | false =>
    obtain ⟨rfl, project, hproject, hs⟩ := (start_full_ok hinc).1 h
    obtain rfl := Option.some.inj hs
    exact ⟨hw, .refl _ _ _, hproject, fun p hp => hp⟩

/-- **An incremental build that succeeds** has found nothing to do, or it leaves everything behind
that belongs to the sources. -/
theorem run_spec (hinc : b.isIncremental = true) (hai : b.isAssisted = false)
    (houtput : b.output.Proper) (hw : w.files.WellFormed)
    (hkept : Kept w.files b.stateFile) (h : b.run.exec w = (.ok (), w')) :
    ∃ out, b.excluded = .ok out ∧
      ((w' = { w with printed := w.printed ++ [skipNotice] } ∧
          ∀ v d, load w.files b.stateFile = .ok ⟨b.stateFile, v⟩ → Holds v d →
            Current w.files (sourceFiles w.files b.source out) d) ∨
        Rebuilds b out w w') := by
  obtain ⟨out, hout, hskip | ⟨s, w₁, hstart, hfinish⟩⟩ := (run_incremental_ok hinc hai).1 h
  · exact ⟨out, hout, .inl (startIncremental_none hkept hskip)⟩
  · obtain ⟨v, d, v', t, hv, hload, hfile, hchanged, hdescribes, ht, rfl, hproject, -, hformat⟩ :=
      startIncremental_some hw hkept hstart
    exact ⟨out, hout, .inr (rebuilds_of_changes hw hfile hchanged houtput hproject hdescribes ht
      hformat hfinish)⟩

end Run

end Docsmith.Build
