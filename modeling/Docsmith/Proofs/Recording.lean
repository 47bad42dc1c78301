/-
What a build records of its sources.

An incremental build records the digests of its sources when it starts (`recorded_of_run`). What the
assistant writes to them after that is not recorded. So the next build finds a file changed exactly
if its digest is not the one that it had before this build.
-/
import Docsmith.Proofs.Assistance

namespace Docsmith.Build

open Snapshot
open FileTree (Grown)

variable {b : Build} {s : Start} {out : List String} {w w' w₁ : World}

/-- A build is skipped if and only if the state is that of the files that it finds. -/
theorem run_skips_iff (hinc : b.isIncremental = true) (hsource : b.source.Proper)
    (houtput : b.output.Proper) (hw : w.files.WellFormed)
    (hkept : Kept w.files b.stateFile) (hout : b.excluded = .ok out) {v : Value}
    {d : String → Option String} (hload : load w.files b.stateFile = .ok ⟨b.stateFile, v⟩)
    (hv : Holds v d) :
    b.run.exec w = (.ok (), { w with printed := w.printed ++ [skipNotice] }) ↔
      Current w.files (Project.sourceFiles w.files b.source out) d := by
  constructor
  · intro h
    obtain ⟨out', hout', hskip | ⟨s, w₁, hstart, hproceed⟩⟩ := (run_ok hinc).1 h
    all_goals obtain rfl : out = out' := Except.ok.inj (hout.symm.trans hout')
    · exact (startIncremental_none hkept hskip).2 v d hload hv
    · -- a build that goes on prints its report last
      obtain ⟨s', w₂, hassisted, hfinish⟩ := Action.exec_bind_ok.1 hproceed
      obtain ⟨hw₂, -⟩ := grown_assisted hsource houtput hw hkept hstart hassisted
      obtain ⟨-, -, -, -, -, -, -, hprinted⟩ := finish_spec hw₂ houtput hfinish
      exact absurd rfl (hprinted w.printed)
  · intro hcurrent
    exact (run_ok hinc).2 ⟨out, hout, .inl (startIncremental_of_current hload hv hcurrent)⟩

section Run

variable (hinc : b.isIncremental = true) (hsource : b.source.Proper) (houtput : b.output.Proper)
  (hw : w.files.WellFormed) (hkept : Kept w.files b.stateFile)

include hinc hsource houtput hw

theorem grown_proceed (hstart : (b.startIncremental out).exec w = (.ok (some s), w₁)) :
    ((b.proceed out s).exec w₁).2.files.WellFormed ∧ Grown (fun _ => True) (fun _ => True) w.files
      ((b.proceed out s).exec w₁).2.files := by
  rw [← start_incremental hinc] at hstart
  obtain ⟨hw₁, hg₁, -, htargets⟩ := start_some houtput hw hstart
  obtain ⟨hw', hg'⟩ := grows_proceed hsource houtput hw htargets w₁ hw₁ hg₁.cwd
  exact ⟨hw', .trans (hg₁.mono (fun _ _ => trivial) fun _ h => h)
    (hg'.mono (fun _ _ => trivial) fun _ h => h)⟩

include hkept

/-- **After a build**, the digests that its sources had before it are recorded, and no others. -/
theorem recorded_of_run (h : b.run.exec w = (.ok (), w')) :
    ∃ out v d, b.excluded = .ok out ∧ w'.files.WellFormed ∧
      load w'.files b.stateFile = .ok ⟨b.stateFile, v⟩ ∧ Holds v d ∧
      (∀ f ∈ Project.sourceFiles w'.files b.source out,
        (d (key w'.files f)).getD "" = hashFile w.files f) ∧
      ∀ name, d name ≠ none →
        name ∈ (Project.sourceFiles w'.files b.source out).map (key w'.files) := by
  obtain ⟨out, hout, hskip | ⟨s, w₁, hstart, hproceed⟩⟩ := (run_ok hinc).1 h
  · obtain ⟨rfl, hcurrent⟩ := startIncremental_none hkept hskip
    obtain ⟨v, d, hv, -, hload, -⟩ := hkept.load
    obtain ⟨hin, hnames⟩ := hcurrent v d hload hv
    exact ⟨out, v, d, hout, hw, hload, hv, hin, hnames⟩
  · obtain ⟨v, ⟨d, hv, hin, hnames⟩, hfile⟩ :=
      find?_stateFile_proceed hsource houtput hw hkept hstart
    obtain ⟨hw', hg⟩ := grown_proceed hinc hsource houtput hw hstart
    rw [hproceed] at hfile hw' hg
    refine ⟨out, v, d, hout, hw', load_text hv hfile, hv,
      fun f hf => recorded_eq hw hw' hg.cwd hin hnames hf, fun name hn => ?_⟩
    obtain ⟨f, hf, rfl⟩ := List.mem_map.1 (hnames name hn)
    exact List.mem_map.2
      ⟨f, Project.mem_sourceFiles_of_grown hw hw' hg hf, key_congr hg.cwd f⟩

/-- **What is found changed after a build** are the files that have another digest than before it.
So the next build, with the assistant or without, is skipped exactly if there are none. -/
theorem changed_iff_rewritten (h : b.run.exec w = (.ok (), w')) :
    ∃ out state, b.excluded = .ok out ∧ load w'.files b.stateFile = .ok state ∧
      (∀ f ∈ Project.sourceFiles w'.files b.source out, state.hasChanged w'.files f =
        .ok !(hashFile w.files f == hashFile w'.files f)) ∧
      ∀ ai, { b with isAssisted := ai }.run.exec w' =
          (.ok (), { w' with printed := w'.printed ++ [skipNotice] }) ↔
        ∀ f ∈ Project.sourceFiles w'.files b.source out,
          hashFile w.files f = hashFile w'.files f := by
  obtain ⟨out, v, d, hout, hw', hload, hv, hin, hnames⟩ :=
    recorded_of_run hinc hsource houtput hw hkept h
  have hkept' : Kept w'.files b.stateFile := by
    have hrun := kept_run hinc hsource houtput hw hkept
    rwa [h] at hrun
  refine ⟨out, _, hout, hload, fun f hf => ?_, fun ai => ?_⟩
  · rw [Holds.hasChanged (s := ⟨b.stateFile, v⟩) w'.files hv, hin f hf]
  · rw [run_skips_iff (b := { b with isAssisted := ai }) hinc hsource houtput hw' hkept' hout hload
      hv]
    refine ⟨fun hcurrent f hf => (hin f hf).symm.trans (hcurrent.1 f hf), fun hsame => ?_⟩
    exact ⟨fun f hf => (hin f hf).trans (hsame f hf), hnames⟩

end Run

/-! ## A source that the assistant documents -/

def assistedBuild : Build := { nestedBuild with output := .ofString "out", isAssisted := true }

/-- A source with two functions, and a chat service that has an answer for one of them. -/
def undocumented : World where
  files := ⟨.ofString "/w", [(["w"], .folder), (["w", "src"], .folder),
    (["w", "src", "a.py"], .file "def f():\n    pass\n\ndef g():\n    pass\n".toUTF8.toList)]⟩
  env := [("GROQ_API_KEY", "k")]
  replies := [.text "Doc."]

def halfDocumented : World := (assistedBuild.run.exec undocumented).2

/-- The source is found changed at once, and the next build is not skipped. -/
theorem rewritten_not_skipped : ∃ state,
    load halfDocumented.files assistedBuild.stateFile = .ok state ∧
    state.hasChanged halfDocumented.files (.ofString "src/a.py") = .ok true ∧
    assistedBuild.run.exec halfDocumented ≠ (.ok (), { halfDocumented with
      printed := halfDocumented.printed ++ [skipNotice] }) := by
  obtain ⟨hwell, hnone, hok, hfound, hdigest⟩ : undocumented.files.WellFormed ∧
      undocumented.files.find? assistedBuild.stateFile = none ∧
      (assistedBuild.run.exec undocumented).1.isOk = true ∧
      (assistedBuild.excluded.toOption.any fun out => decide (Path.ofString "src/a.py" ∈
        Project.sourceFiles halfDocumented.files assistedBuild.source out)) = true ∧
      hashFile undocumented.files (.ofString "src/a.py") ≠
        hashFile halfDocumented.files (.ofString "src/a.py") := by
    decide +kernel
  have hkept : Kept undocumented.files assistedBuild.stateFile := fun bytes hbytes => by
    rw [hnone] at hbytes
    cases hbytes
  have hrun : assistedBuild.run.exec undocumented = (.ok (), halfDocumented) := by
    rw [halfDocumented]
    exact exec_eq_of_isOk hok
  obtain ⟨out, state, hout, hload, hchanged, hskips⟩ := changed_iff_rewritten rfl
    (Path.proper_ofString _) (Path.proper_ofString _) hwell hkept hrun
  rw [hout] at hfound
  have hmem : Path.ofString "src/a.py" ∈
      Project.sourceFiles halfDocumented.files assistedBuild.source out := of_decide_eq_true hfound
  refine ⟨state, hload, ?_, fun hskip => hdigest ((hskips true).1 hskip _ hmem)⟩
  rw [hchanged _ hmem, beq_eq_false_iff_ne.2 hdigest]
  rfl

end Docsmith.Build
