/-
Builds that fail.

An incremental build saves the state of the sources when it starts, before it writes pages. One
that fails until then leaves a state with which the next build finds the same files changed and
gone (`retried_of_start_error`). One that fails later leaves the state of the sources, so that the
next build has nothing to do although there are no pages (`run_skips_after_error`).
-/
import Docsmith.Proofs.Assistance

namespace Docsmith.Build

open Snapshot Project Action
open FileTree (Grown)

variable {b : Build} {s : Start} {out : List String} {w w' w₁ : World} {e : Fault}

def changes (b : Build) (out : List String) (t : FileTree) : Except Fault Diff := do
  let state ← load t b.stateFile
  state.diff t (sourceFiles t b.source out)

/-- A build has as much to do as before: the state is what it was, and the same files are found
changed and gone. -/
structure Retried (b : Build) (t t' : FileTree) : Prop where
  state : ∀ bytes, t'.find? b.stateFile = some (.file bytes) ↔
    t.find? b.stateFile = some (.file bytes)
  changes : ∀ out r, b.excluded = .ok out → b.changes out t = .ok r → ∃ r',
    b.changes out t' = .ok r' ∧ (∀ f, f ∈ r'.changed ↔ f ∈ r.changed) ∧
    ∀ f, f ∈ r'.deleted ↔ f ∈ r.deleted

/-- A build gets through its start: it finds something to do, reads the sources and saves their
state. -/
def Starts (b : Build) (w : World) : Prop :=
  ∃ out s w₁, b.excluded = .ok out ∧ (b.startIncremental out).exec w = (.ok (some s), w₁)

/-! ## Failures before the state is saved -/

theorem retried_refl (b : Build) (t : FileTree) : Retried b t t :=
  ⟨fun _ => .rfl, fun _ r _ hr => ⟨r, hr, fun _ => .rfl, fun _ => .rfl⟩⟩

theorem changes_of_no_state {t : FileTree}
    (h : ∀ bytes, t.find? b.stateFile ≠ some (.file bytes)) (out : List String) :
    ∃ r, b.changes out t = .ok r ∧ (∀ f, f ∈ r.changed ↔
      ∃ bytes, f ∈ sourceFiles t b.source out ∧ t.find? f = some (.file bytes)) ∧
      ∀ f, f ∉ r.deleted := by
  obtain ⟨r, hr, hchanged, hdeleted⟩ :=
    Holds.diff (s := ⟨b.stateFile, .map []⟩) t holds_empty
      (sourceFiles t b.source out)
  refine ⟨r, Except.bind_ok_iff.2 ⟨_, load_of_no_file h, hr⟩, fun f => ?_, fun f hf => ?_⟩
  · rw [hchanged, Option.getD_none]
    constructor
    · rintro ⟨hf, hne⟩
      obtain ⟨bytes, hbytes⟩ := exists_file_of_hashFile hne.symm
      exact ⟨bytes, hf, hbytes⟩
    · rintro ⟨bytes, hf, hbytes⟩
      rw [hashFile_of_file hbytes]
      exact ⟨hf, (hexDigest_ne_empty bytes).symm⟩
  · obtain ⟨name, hn, -⟩ := (hdeleted f).1 hf
    exact hn rfl

theorem startChanged_error {state : Snapshot} {files : List Path} {diff : Diff}
    (h : (b.startChanged out state files diff).exec w = (.error e, w₁)) :
    w₁ = w ∨ ∃ state', (state.updateAll w.files files >>= fun s =>
        s.removeAll w.files diff.deleted) = .ok state' ∧
      state'.save.exec w = (.error e, w₁) := by
  simp only [startChanged, exec_bind_error, exec_ofFiles, exec_pure,
    Prod.mk.injEq, reduceCtorEq, false_and, and_false, exists_false, or_false] at h
  rcases h with ⟨-, rfl⟩ | ⟨_, _, ⟨-, rfl⟩, ⟨-, rfl⟩ | ⟨state', _, ⟨hstate, rfl⟩, hsave⟩⟩
  · exact .inl rfl
  · exact .inl rfl
  · exact .inr ⟨state', hstate, hsave⟩

/-- A build that fails when it starts has written nothing, or could not save a state after it found
something to do. -/
theorem startIncremental_error (h : (b.startIncremental out).exec w = (.error e, w₁)) :
    w₁ = w ∨ ∃ state diff, ∃ state' : Snapshot, load w.files b.stateFile = .ok state ∧
      state.diff w.files (sourceFiles w.files b.source out) = .ok diff ∧
      ¬ (diff.changed.isEmpty && diff.deleted.isEmpty) = true ∧ state'.path = b.stateFile ∧
      state'.save.exec w = (.error e, w₁) := by
  have hstart := h
  rw [startIncremental, exec_bind_error] at hstart
  rcases hstart with hread | ⟨x, w₂, hread, -⟩
  · rw [exec_ofFiles] at hread
    exact .inl (Prod.mk.inj hread).2.symm
  · rw [exec_ofFiles] at hread
    obtain ⟨state, hload, hrest⟩ := Except.bind_ok_iff.1 (Prod.mk.inj hread).1
    obtain ⟨diff, hdiff, -⟩ := Except.bind_ok_iff.1 hrest
    rw [exec_startIncremental hload hdiff] at h
    split at h
    next => cases h
    next hchanges =>
      rcases startChanged_error h with rfl | ⟨state', hstate, hsave⟩
      · exact .inl rfl
      · exact .inr ⟨state, diff, state', hload, hdiff, hchanges,
          (path_of_update hstate).trans (path_of_load hload), hsave⟩

/-- **A build that fails when it starts** is retried. -/
theorem retried_of_start_error (houtput : b.output.Proper) (hw : w.files.WellFormed)
    (h : (b.startIncremental out).exec w = (.error e, w₁)) : Retried b w.files w₁.files := by
  rcases startIncremental_error h with
    rfl | ⟨state, diff, state', hload, hdiff, hchanges, hpath, hsave⟩
  · exact retried_refl b _
  rcases save_error hw (hpath ▸ (isLeaf_stateFile houtput).proper) hsave with
    rfl | ⟨hw₁, hg, hnone₁⟩
  · exact retried_refl b _
  -- no file is there and none was there, so that there were sources
  rw [hpath] at hnone₁
  have hnone : ∀ bytes, w.files.find? b.stateFile ≠ some (.file bytes) := fun bytes hbytes =>
    hnone₁ bytes (hg.find? (fun hf => hf) hbytes)
  obtain rfl : (⟨b.stateFile, .map []⟩ : Snapshot) = state :=
    Except.ok.inj ((load_of_no_file hnone).symm.trans hload)
  have hsource : w.files.isFolder b.source = true := by
    refine Classical.byContradiction fun hn => hchanges ?_
    refine (Holds.current_iff holds_empty hdiff).2 ⟨fun f hf => ?_, ?_⟩
    · exact absurd ((mem_sourceFiles hw).1 hf).1 hn
    · exact fun _ hn => absurd rfl hn
  refine ⟨fun bytes => iff_of_false (hnone₁ bytes) (hnone bytes), fun out r _ hr => ?_⟩
  have hsame : SameSources w.files w₁.files b.source out :=
    sameSources_of_grown hw hw₁ hg (fun _ hf => hf.elim)
      fun _ => (FileTree.isFolder_iff.1 hsource).1
  obtain ⟨r₀, hr₀, hchanged, hdeleted⟩ := changes_of_no_state hnone out
  obtain rfl : r₀ = r := Except.ok.inj (hr₀.symm.trans hr)
  obtain ⟨r', hr', hchanged', hdeleted'⟩ := changes_of_no_state hnone₁ out
  refine ⟨r', hr', fun f => ?_, fun f => iff_of_false (hdeleted' f) (hdeleted f)⟩
  rw [hchanged, hchanged']
  exact exists_congr fun bytes => (hsame f bytes).symm

/-! ## Failures after the state is saved -/

theorem exec_makeFolders_bind {α : Type} {p : Path} {k : Unit → Action α}
    (h : w.files.isFolder p = true) : (makeFolders p >>= k).exec w = (k ()).exec w := by
  have hmake : (makeFolders p).exec w = (.ok (), w) :=
    Page.exec_makeFolders_ok.2 ⟨w.files, FileTree.makeFolders_eq h, rfl⟩
  rw [exec_bind, hmake]

theorem grown_of_grows {α : Type} {P Q : List String → Prop} {a : Action α}
    (hw : w.files.WellFormed) (h : Grows w.files.cwd P Q a) : Grown P Q w.files (a.exec w).2.files :=
  (h w hw rfl).2

/-- Without sources, a build into a folder that is there makes no folder. -/
theorem grown_finish_of_no_modules (houtput : b.output.Proper) (hw : w.files.WellFormed)
    (hfolder : w.files.isFolder b.output = true) (hmodules : s.project.modules = []) :
    Grown IsOutput (fun _ => False) w.files ((b.finish s).exec w).2.files := by
  have hindex := Page.isPage_indexFile (.ofValue b.format) b.output
  rw [finish, Page.writeSite, bind_assoc, exec_makeFolders_bind hfolder,
    exec_makeFolders_bind hfolder]
  apply grown_of_grows hw
  refine .bind (.bind (.writeText (hindex.isLeaf houtput).proper
    (fun t _ => isOutput_page hindex t) _) fun _ => .bind (.mapM fun m hm => ?_) fun _ => .pure _)
    fun _ => .bind (.ofExcept _) fun _ => .bind (.writeText (isLeaf_reportFile houtput).proper
      (fun t _ => isOutput_reportFile b t) _) fun _ => .of_files fun w => ?_
  · rw [hmodules] at hm
    cases hm
  · rw [exec_forM_notify]

section Started

variable (houtput : b.output.Proper) (hw : w.files.WellFormed)
  (hkept : Kept w.files b.stateFile)
  (hstart : (b.startIncremental out).exec w = (.ok (some s), w₁))

include houtput hw hkept hstart

theorem isFolder_source_finish (hfolder : ((b.finish s).exec w₁).2.files.isFolder b.source = true) :
    w.files.isFolder b.source = true := by
  obtain ⟨-, d, v, t, -, -, hfile, hchanged, -, ht, rfl, hproject, -, -⟩ :=
    startIncremental_some hw hkept hstart
  obtain ⟨hwt, hgt, -, -⟩ := Page.writePage_spec hw (isLeaf_stateFile houtput) ht
  refine Classical.byContradiction fun hn => hn ?_
  have hsource := Bool.eq_false_iff.2 hn
  have houtputs := isFolder_output hw hfile hchanged houtput hsource
  have hg := grown_finish_of_no_modules (s := s) (w := { w with files := t }) houtput hwt
    (hgt.isFolder houtputs) (modules_of_not_isFolder hproject hsource)
  refine hgt.isFolder_back (fun loc hloc => not_madeFor houtputs loc ?_)
    (hg.isFolder_back (fun _ hf => hf) hfolder)
  rwa [parent_stateFile] at hloc

variable (hsource : b.source.Proper)

include hsource

/-- The state that is saved is not the one of before, with which there was something to do. -/
theorem not_retried_proceed :
    ¬ Retried b w.files ((b.proceed out s).exec w₁).2.files := by
  intro hretried
  obtain ⟨v', ⟨d', hv', hin, hnames⟩, hstate⟩ :=
    find?_stateFile_proceed hsource houtput hw hkept hstart
  obtain ⟨v, d, -, -, hv, hload, -, hchanged, -⟩ := startIncremental_some hw hkept hstart
  have hload' := load_text hv' ((hretried.state _).1 hstate)
  obtain rfl : v = v' := (Snapshot.mk.inj (Except.ok.inj (hload.symm.trans hload'))).2
  have hcurrent : Current w.files (sourceFiles w.files b.source out) d' :=
    ⟨fun f hf => by rw [hin f hf, Option.getD_some], hnames⟩
  obtain ⟨r, hr, -⟩ := Holds.diff (s := ⟨b.stateFile, v⟩) w.files hv
    (sourceFiles w.files b.source out)
  have hskip := (Holds.current_iff (s := ⟨b.stateFile, v⟩) hv' hr).2 hcurrent
  exact hchanged ((Holds.current_iff (s := ⟨b.stateFile, v⟩) hv hr).1 hskip)

/-- **A build that fails after its start** is not done again. -/
theorem run_skips_after_error (hinc : b.isIncremental = true) (hai : b.isAssisted = false)
    (hout : b.excluded = .ok out) :
    b.run.exec ((b.proceed out s).exec w₁).2 = (.ok (), { ((b.proceed out s).exec w₁).2 with
      printed := ((b.proceed out s).exec w₁).2.printed ++ [skipNotice] }) := by
  obtain ⟨v, ⟨d, hv, hin, hnames⟩, hstate⟩ :=
    find?_stateFile_proceed hsource houtput hw hkept hstart
  rw [proceed_eq_finish hai] at hstate ⊢
  have hback := isFolder_source_finish houtput hw hkept hstart
  obtain ⟨-, -, v', t, -, -, -, -, -, ht, rfl, -, -, -⟩ := startIncremental_some hw hkept hstart
  obtain ⟨hwt, hgt, -, -⟩ := Page.writePage_spec hw (isLeaf_stateFile houtput) ht
  obtain ⟨hw', hg'⟩ := grows_finish (s := s) houtput { w with files := t } hwt rfl
  have hg : Grown (fun loc => isSourceName (loc.getLast?.getD "") = false) (fun _ => True)
      w.files ((b.finish s).exec { w with files := t }).2.files := by
    refine .trans (hgt.mono ?_ fun _ _ => trivial) (hg'.mono (fun _ => And.left) fun _ h => h)
    rintro loc rfl
    exact isSourceName_stateFile b w.files
  have hsame : SameSources w.files _ b.source out :=
    sameSources_of_grown hw hw' hg (fun _ hp => hp)
      fun hd => (FileTree.isFolder_iff.1 (hback hd)).1
  exact run_skips hinc hai hout (load_text hv hstate) hv
    (current_of_sameSources hw hw' hg hsame hin hnames)

end Started

/-! ## Failed builds -/

/-- Where a build fails: before anything is read, when it starts, or after its start. -/
theorem run_error (hinc : b.isIncremental = true) (h : b.run.exec w = (.error e, w')) :
    b.excluded = .error e ∧ w' = w ∨ ∃ out, b.excluded = .ok out ∧
      ((b.startIncremental out).exec w = (.error e, w') ∨
        ∃ s w₁, (b.startIncremental out).exec w = (.ok (some s), w₁) ∧
          (b.proceed out s).exec w₁ = (.error e, w')) := by
  simp only [run_eq hinc, exec_bind_error, exec_ofExcept, Prod.mk.injEq] at h
  rcases h with ⟨hout, rfl⟩ | ⟨out, _, ⟨hout, rfl⟩, hstart | ⟨start, w₁, hstart, hrest⟩⟩
  · exact .inl ⟨hout, rfl⟩
  · exact .inr ⟨out, hout, .inl hstart⟩
  · cases start with
    | none => cases hrest
    | some s => exact .inr ⟨out, hout, .inr ⟨s, w₁, hstart, hrest⟩⟩

/-- **Failed builds.** An incremental build that fails is retried if it does not get through its
start: then the state is what it was, and the next build finds the same files changed and gone. If
it does, and the state was not tampered with, then it is not retried, and without the assistant the
next build has nothing to do. -/
theorem retried_unless_started (hinc : b.isIncremental = true) (hsource : b.source.Proper)
    (houtput : b.output.Proper) (hw : w.files.WellFormed) (h : b.run.exec w = (.error e, w')) :
    (¬ b.Starts w → Retried b w.files w'.files) ∧
      (Kept w.files b.stateFile → b.Starts w → ¬ Retried b w.files w'.files ∧
        (b.isAssisted = false →
          b.run.exec w' = (.ok (), { w' with printed := w'.printed ++ [skipNotice] }))) := by
  rcases run_error hinc h with ⟨hout, rfl⟩ | ⟨out, hout, hstart | ⟨s, w₁, hstart, hproceed⟩⟩
  · refine ⟨fun _ => retried_refl b _, fun _ ⟨out, _, _, hout', _⟩ => ?_⟩
    rw [hout] at hout'
    cases hout'
  · refine ⟨fun _ => retried_of_start_error houtput hw hstart,
      fun _ ⟨out', _, _, hout', hstart'⟩ => ?_⟩
    obtain rfl : out = out' := Except.ok.inj (hout.symm.trans hout')
    rw [hstart] at hstart'
    cases hstart'
  · refine ⟨fun hn => absurd ⟨out, s, w₁, hout, hstart⟩ hn, fun hkept _ => ?_⟩
    have hnot := not_retried_proceed houtput hw hkept hstart hsource
    have hskips := run_skips_after_error houtput hw hkept hstart hsource hinc
    rw [hproceed] at hnot hskips
    exact ⟨hnot, fun hai => hskips hai hout⟩

def plainBuild : Build where
  source := .ofString "src"
  output := .ofString "out"
  format := .str "markdown"
  settings := {}
  isIncremental := true
  isAssisted := false

/-- A source whose page cannot be written, since a folder is in its place. -/
def blocked : World where
  files := ⟨.ofString "/w", [(["w"], .folder), (["w", "src"], .folder),
    (["w", "src", "a.py"], .file "\"text\"\n".toUTF8.toList), (["w", "out"], .folder),
    (["w", "out", "a.md"], .folder)]⟩

theorem blocked_not_retried : ∃ e w', plainBuild.run.exec blocked = (.error e, w') ∧
    ¬ Retried plainBuild blocked.files w'.files ∧
    plainBuild.run.exec w' = (.ok (), { w' with printed := w'.printed ++ [skipNotice] }) := by
  obtain ⟨out, hout⟩ : ∃ out, plainBuild.excluded = .ok out := ⟨_, rfl⟩
  obtain ⟨hwell, hnone, hfails, hsome⟩ : blocked.files.WellFormed ∧
      blocked.files.find? plainBuild.stateFile = none ∧
      (plainBuild.run.exec blocked).1.isOk = false ∧
      (plainBuild.excluded.toOption.bind fun out =>
        ((plainBuild.startIncremental out).exec blocked).1.toOption.join).isSome = true := by
    decide +kernel
  have hkept : Kept blocked.files plainBuild.stateFile := fun bytes hbytes => by
    rw [hnone] at hbytes
    cases hbytes
  have hstarts : plainBuild.Starts blocked := by
    rw [hout] at hsome
    rcases hstart : (plainBuild.startIncremental out).exec blocked with ⟨_ | _ | s, w₁⟩
    · simp [hstart, Except.toOption] at hsome
    · simp [hstart, Except.toOption] at hsome
    · exact ⟨out, s, w₁, hout, hstart⟩
  rcases hrun : plainBuild.run.exec blocked with ⟨e | ⟨⟩, w'⟩
  · obtain ⟨hnot, hskips⟩ := (retried_unless_started rfl (Path.proper_ofString _)
      (Path.proper_ofString _) hwell hrun).2 hkept hstarts
    exact ⟨e, w', rfl, hnot, hskips rfl⟩
  · rw [hrun] at hfails
    cases hfails

end Docsmith.Build
