/-
Incremental builds converge: one that succeeds finds nothing to do when it is run again at once.
The state that it starts from may come from any earlier incremental builds, of other sources too,
with the assistant or without, and also from builds that failed (`Written`). All of them leave a
state that can be read (`kept_run`), since after it is saved only sources, pages and the report
are written.
-/
import Docsmith.Proofs.Assistant
import Docsmith.Proofs.Incremental
import Docsmith.Proofs.Session

namespace Docsmith.Build

open Snapshot Project Action

variable {b : Build} {s : Start} {cwd : Path} {P Q : List String → Prop}

/-! ## What a build writes after it has started -/

theorem grows_fillFiles (a : Assistant) {files : List Path} (hproper : ∀ p ∈ files, p.Proper)
    (hP : ∀ p ∈ files, ∀ t : FileTree, t.cwd = cwd → P (t.place p)) :
    Grows cwd P Q (fillFiles a files) := by
  induction files with
  | nil => exact .pure _
  | cons p files ih =>
    have hp := Assistant.grows_fill (Q := Q) (hproper p List.mem_cons_self)
      (hP p List.mem_cons_self) a false
    refine .bind hp.attempt fun r => ?_
    split
    · exact .pure _
    · exact .bind (ih (fun q hq => hproper q (List.mem_cons_of_mem _ hq))
        fun q hq => hP q (List.mem_cons_of_mem _ hq)) fun _ => .pure _

theorem grows_assist (out : List String) (hproper : ∀ p ∈ s.targets, p.Proper)
    (hP : ∀ p ∈ s.targets, ∀ t : FileTree, t.cwd = cwd → P (t.place p)) :
    Grows cwd P Q (b.assist out s) := by
  refine .bind (.of_files fun _ => rfl) fun w => ?_
  dsimp only
  split
  · exact .pure _
  · refine .bind (grows_fillFiles _ hproper hP) fun filled => ?_
    split
    · exact .pure _
    · split
      · exact .pure _
      · refine .bind (Grows.ofFiles _).attempt fun r => ?_
        split <;> exact .pure _

theorem grows_finish (houtput : b.output.Proper) :
    Grows cwd IsOutput (fun _ => True) (b.finish s) := by
  have hsite : Grows cwd IsOutput (fun _ => True)
      (Page.writeSite (.ofValue b.format) s.project b.output) := by
    refine Page.grows_writeSite houtput (fun t _ => ⟨?_, fun m _ => ?_⟩) fun _ _ _ =>
      ⟨fun _ => trivial, fun _ _ _ => trivial⟩
    · exact isOutput_page (Page.isPage_indexFile _ _) t
    · obtain ⟨_, _, _, -, hfile⟩ := Page.isPage_moduleFile (.ofValue b.format) b.output m
      exact isOutput_page hfile t
  refine .bind (.makeFolders houtput fun _ _ _ _ => trivial) fun _ => .bind hsite fun _ =>
    .bind (.ofExcept _) fun _ =>
    .bind (.writeText (isLeaf_reportFile houtput).proper (fun t _ => isOutput_reportFile b t) _)
    fun _ => .of_files fun w => ?_
  rw [exec_forM_notify]

/-! ## States of earlier builds -/

theorem save_cases {s : Snapshot} {w : World} (hw : w.files.WellFormed) (hs : s.path.Proper) :
    (∃ w₁, s.save.exec w = (.ok (), w₁) ∧ w₁.files.WellFormed ∧ w₁.files.cwd = w.files.cwd ∧
        w₁.files.find? s.path = some (.file s.text.toUTF8.toList)) ∨
      ∃ e w₁, s.save.exec w = (.error e, w₁) ∧ ∀ bytes, w₁.files.find? s.path = some (.file bytes) →
        w.files.find? s.path = some (.file bytes) := by
  rcases h : s.save.exec w with ⟨e | ⟨⟩, w₁⟩
  · refine .inr ⟨e, w₁, rfl, fun bytes hbytes => ?_⟩
    rcases save_error hw hs h with rfl | ⟨-, -, hnone⟩
    · exact hbytes
    · exact absurd hbytes (hnone bytes)
  · exact .inl ⟨_, rfl, save_spec hw hs h⟩

variable {out : List String} {w : World}

/-- A build that starts leaves the state of before, or it has something to do and leaves that of the
sources. -/
theorem startIncremental_cases (out : List String) (houtput : b.output.Proper)
    (hw : w.files.WellFormed) (hkept : Kept w.files b.stateFile) :
    (∃ r w₁, (b.startIncremental out).exec w = (r, w₁) ∧ (∀ s, r ≠ .ok (some s)) ∧
        ∀ bytes, w₁.files.find? b.stateFile = some (.file bytes) →
          w.files.find? b.stateFile = some (.file bytes)) ∨
      ∃ s w₁ v, (b.startIncremental out).exec w = (.ok (some s), w₁) ∧ w₁.files.WellFormed ∧
        w₁.files.cwd = w.files.cwd ∧
        w₁.files.find? b.stateFile = some (.file (text ⟨b.stateFile, v⟩).toUTF8.toList) ∧
        Describes w.files (sourceFiles w.files b.source out) v ∧
        ∀ p ∈ s.targets, p ∈ sourceFiles w.files b.source out := by
  obtain ⟨v, d, hv, hd, hload, -⟩ := hkept.load
  obtain ⟨diff, hdiff, hchanged, -⟩ :=
    Holds.diff (s := ⟨b.stateFile, v⟩) w.files hv
      (sourceFiles w.files b.source out)
  obtain ⟨v', hv', hdescribes⟩ := describes_of_diff (s := ⟨b.stateFile, v⟩) hv hd
    (consistent_sourceFiles hw b.source out) hdiff
  rw [exec_startIncremental hload hdiff]
  split
  next => exact .inl ⟨_, _, rfl, fun s hs => (by cases hs), fun _ h => h⟩
  next =>
    rw [startChanged, exec_bind, exec_ofFiles]
    cases b.project out w.files with
    | error e => exact .inl ⟨_, _, rfl, fun s hs => (by cases hs), fun _ h => h⟩
    | ok project =>
      dsimp only
      rw [exec_bind, exec_ofFiles, hv']
      dsimp only
      rw [exec_bind]
      rcases save_cases (s := ⟨b.stateFile, v'⟩) hw (isLeaf_stateFile houtput).proper with
        ⟨w₁, hsave, hw₁, hcwd, hstate⟩ | ⟨e, w₁, hsave, hback⟩
      · rw [hsave]
        exact .inr ⟨_, _, v', rfl, hw₁, hcwd, hstate, hdescribes, fun p hp => ((hchanged p).1 hp).1⟩
      · rw [hsave]
        exact .inl ⟨_, _, rfl, fun s hs => (by cases hs), hback⟩

theorem grows_assisted (hsource : b.source.Proper) (hw : w.files.WellFormed)
    (htargets : ∀ p ∈ s.targets, p ∈ sourceFiles w.files b.source out) :
    Grows w.files.cwd (fun loc => isSourceName (loc.getLast?.getD "") = true)
      (fun _ => True) (b.assisted out s) := by
  rw [assisted]
  split
  · refine grows_assist out (fun p hp => ?_) fun p hp t ht => ?_
    · exact proper_source hw hsource (htargets p hp)
    · have hplace : t.place p = w.files.place p := by simp only [FileTree.place, ht]
      rw [hplace]
      exact isSourceName_source hw (htargets p hp)
  · exact .pure s

/-- After its start, a build writes sources, pages and the report, and no state. -/
theorem grows_proceed (hsource : b.source.Proper) (houtput : b.output.Proper)
    (hw : w.files.WellFormed)
    (htargets : ∀ p ∈ s.targets, p ∈ sourceFiles w.files b.source out) :
    Grows w.files.cwd (fun loc => loc.getLast? ≠ some fileName) (fun _ => True)
      (b.proceed out s) := by
  refine .bind ((grows_assisted hsource hw htargets).mono (fun loc hloc hlast => ?_) fun _ h => h)
    fun s => (grows_finish houtput).mono (fun _ => And.right) fun _ h => h
  rw [hlast] at hloc
  exact absurd hloc (by decide)

/-- **A state stays readable**, however an incremental build ends and whether or not the assistant
takes part in it. -/
theorem kept_run (hinc : b.isIncremental = true) (hsource : b.source.Proper)
    (houtput : b.output.Proper) (hw : w.files.WellFormed)
    (hkept : Kept w.files b.stateFile) :
    Kept (b.run.exec w).2.files b.stateFile := by
  rw [run_eq hinc, exec_bind, exec_ofExcept]
  cases b.excluded with
  | error e => exact hkept
  | ok out =>
    dsimp only
    rw [exec_bind]
    rcases startIncremental_cases out houtput hw hkept with
      ⟨r, w₁, hstart, hr, hback⟩ | ⟨s, w₁, v, hstart, hw₁, hcwd, hstate, ⟨d, hv, -, hd⟩, htargets⟩
    · rw [hstart]
      have hkept₁ : Kept w₁.files b.stateFile :=
        fun bytes hb => hkept bytes (hback bytes hb)
      rcases r with e | _ | s
      · exact hkept₁
      · exact hkept₁
      · exact absurd rfl (hr s)
    · rw [hstart]
      obtain ⟨-, hgrown⟩ := grows_proceed hsource houtput hw htargets w₁ hw₁ hcwd
      have hfile := hgrown.find? (p := b.stateFile) (fun hname => hname (by
        rw [place_stateFile, List.getLast?_concat])) hstate
      intro bytes hbytes
      have hbytes := hfile.symm.trans hbytes
      refine ⟨v, d, hv, fun name hn => ?_, (Entry.file.inj (Option.some.inj hbytes)).symm⟩
      obtain ⟨f, hf, rfl⟩ := List.mem_map.1 (hd name hn)
      exact ⟨w.files.place f, fun _ => isName_source hw hf, rfl⟩

/-- What incremental builds may have written to the file of a state, one after the other. -/
inductive Written : List UInt8 → Prop
  | build {b : Build} {w : World} {bytes : List UInt8} : b.isIncremental = true → b.source.Proper →
    b.output.Proper → w.files.WellFormed →
    (∀ old, w.files.find? b.stateFile = some (.file old) → Written old) →
    (b.run.exec w).2.files.find? b.stateFile = some (.file bytes) → Written bytes

theorem Written.text {bytes : List UInt8} (h : Written bytes) :
    ∃ v d, Holds v d ∧ Named d ∧
      ∀ path, bytes = (text ⟨path, v⟩).toUTF8.toList := by
  induction h with
  | build hinc hsource houtput hw _ hbytes ih =>
    have hkept : Kept _ _ := fun old hold =>
      let ⟨v, d, hv, hd, htext⟩ := ih old hold
      ⟨v, d, hv, hd, htext _⟩
    obtain ⟨v, d, hv, hd, rfl⟩ := kept_run hinc hsource houtput hw hkept _ hbytes
    exact ⟨v, d, hv, hd, fun _ => rfl⟩

/-- **Incremental builds converge.** One that succeeds finds nothing to do when it is run again at
once: it says so and changes no file. -/
theorem run_again_skips (hinc : b.isIncremental = true) (hai : b.isAssisted = false)
    (houtput : b.output.Proper) (hw : w.files.WellFormed)
    (hstate : ∀ bytes, w.files.find? b.stateFile = some (.file bytes) → Written bytes) {w' : World}
    (h : b.run.exec w = (.ok (), w')) :
    b.run.exec w' = (.ok (), { w' with printed := w'.printed ++ [skipNotice] }) := by
  have hkept : Kept w.files b.stateFile := fun bytes hbytes =>
    let ⟨v, d, hv, hd, htext⟩ := (hstate bytes hbytes).text
    ⟨v, d, hv, hd, htext _⟩
  obtain ⟨out, hout, ⟨rfl, hcurrent⟩ | hre⟩ := run_spec hinc hai houtput hw hkept h
  · obtain ⟨v, d, hv, -, hload, -⟩ := hkept.load
    exact run_skips hinc hai hout hload hv (hcurrent v d hload hv)
  · obtain ⟨v, ⟨d, hv, hin, hnames⟩, hfile⟩ := hre.built.state
    exact run_skips hinc hai hout (load_text hv hfile) hv (hre.current hin hnames)

theorem run_again_edited :
    nestedBuild.run.exec (nestedBuild.run.exec edited).2 =
      (.ok (), { (nestedBuild.run.exec edited).2 with
        printed := (nestedBuild.run.exec edited).2.printed ++ [skipNotice] }) := by
  obtain ⟨hnone, hunbuilt, hedited, hsame⟩ : unbuilt.files.find? nestedBuild.stateFile = none ∧
      unbuilt.files.WellFormed ∧ edited.files.WellFormed ∧
      edited.files.find? nestedBuild.stateFile = built.files.find? nestedBuild.stateFile := by
    decide +kernel
  -- the state is the one that the first build wrote
  have hstate : ∀ bytes, edited.files.find? nestedBuild.stateFile = some (.file bytes) →
      Written bytes := fun bytes hbytes =>
    .build rfl (Path.proper_ofString _) (Path.proper_ofString _) hunbuilt
      (fun old hold => by rw [hnone] at hold; cases hold) (hsame.symm.trans hbytes)
  exact run_again_skips rfl rfl (Path.proper_ofString _) hedited hstate
    (exec_eq_of_isOk isOk_edited)

end Docsmith.Build
