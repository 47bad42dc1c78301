/-
Changed files in a report.

A report lists the files that changed before anything else, and each as added (`changes_assisted`,
`changes_not_told_apart`), whether or not it was recorded.
-/
import Docsmith.Proofs.Tally

namespace Docsmith.Build

variable {b : Build} {s s' : Start} {out : List String} {w w' : World}

/-- The entry of a changed file, if files that were recorded are told apart. -/
def toldApart (tree : FileTree) (names : List String) (p : Path) : Change :=
  ⟨p.stem, p.stem, "file", if Snapshot.key tree p ∈ names then "modified" else "added", 0⟩

theorem changedFile_eq_toldApart {tree : FileTree} {state : Snapshot} {names : List String}
    {p : Path} : changedFile state p = toldApart tree names p ↔ Snapshot.key tree p ∉ names := by
  rw [changedFile_eq, toldApart]
  by_cases h : Snapshot.key tree p ∈ names <;> simp [h]

theorem changes_assisted (h : (b.assisted out s).exec w = (.ok s', w')) :
    s.report.changes <+: s'.report.changes := by
  rw [assisted] at h
  split at h
  next =>
    cases assist_ok h with
    | noKey => exact List.prefix_rfl
    | stopped => exact List.prefix_append _ _
    | nothing => exact List.prefix_append _ _
    | unreadable => exact List.prefix_append _ _
    | reread => exact List.prefix_append _ _
  next =>
    cases h
    exact List.prefix_rfl

/-- **Changed files are not told apart.** An incremental build that succeeds has nothing to do, or
its report starts with its changed files. Whether one was recorded is looked up by its path among
texts, so it never is, and each is listed as added. So the entries tell the files that were recorded
from the others exactly if none of them was. -/
theorem changes_not_told_apart (hinc : b.isIncremental = true) (h : b.run.exec w = (.ok (), w')) :
    w' = { w with printed := w.printed ++ [skipNotice] } ∨
      ∃ out state names diff, ∃ r : Report, ∃ rest, b.excluded = .ok out ∧
        Snapshot.load w.files b.stateFile = .ok state ∧ state.known = .ok names ∧
        state.diff w.files (Project.sourceFiles w.files b.source out) = .ok diff ∧
        w'.files.find? b.reportFile = some (.file r.text.toUTF8.toList) ∧
        r.changes = diff.changed.map (changedFile state) ++ rest ∧
        (∀ f ∈ diff.changed, Key.path f ∉ keys state ∧ (changedFile state f).action = "added") ∧
        (diff.changed.map (changedFile state) = diff.changed.map (toldApart w.files names) ↔
          ∀ f ∈ diff.changed, Snapshot.key w.files f ∉ names) := by
  obtain ⟨out, hout, hskip | ⟨s, w₁, hstart, hproceed⟩⟩ := (run_ok hinc).1 h
  · rw [← start_incremental hinc] at hskip
    exact .inl (start_none hskip).2
  · obtain ⟨s', w₂, hassisted, hfinish⟩ := Action.exec_bind_ok.1 hproceed
    obtain ⟨state, diff, hload, hdiff, ⟨hnone, -⟩ | hchanged⟩ := startIncremental_ok hstart
    · cases hnone
    · obtain ⟨names, hnames, -⟩ := Except.bind_ok_iff.1 hdiff
      obtain ⟨_, _, _, -, -, -, -, hs⟩ := startChanged_ok.1 hchanged
      obtain rfl := Option.some.inj hs
      obtain ⟨more, hmore⟩ := changes_assisted hassisted
      refine .inr ⟨out, state, names, diff, finalReport s' (1 + s'.project.moduleCount),
        removedFiles diff.deleted ++ more ++ deprecated s'.project, hout, hload, hnames, hdiff,
        (find?_reportFile hfinish).1, ?_,
        fun f _ => ⟨path_not_mem_keys state f, by rw [changedFile_eq]⟩, ?_⟩
      · rw [finalReport, ← hmore, startReport]
        simp only [List.append_assoc]
      · rw [List.map_inj_left]
        exact forall₂_congr fun f _ => changedFile_eq_toldApart

/-- Whether a build finds a changed file that is recorded. -/
def findsRecorded (b : Build) (tree : FileTree) : Except Fault Bool := do
  let out ← b.excluded
  let state ← Snapshot.load tree b.stateFile
  let names ← state.known
  let diff ← state.diff tree (Project.sourceFiles tree b.source out)
  pure (diff.changed.any fun f => names.contains (Snapshot.key tree f))

theorem findsRecorded_edited :
    (nestedBuild.run.exec edited).2.printed ≠ edited.printed ++ [skipNotice] ∧
      (nestedBuild.findsRecorded edited.files).toOption = some true := by
  decide +kernel

theorem changes_not_told_apart_edited :
    ∃ state names, ∃ changed : List Path, ∃ r : Report, ∃ rest,
    (nestedBuild.run.exec edited).2.files.find? nestedBuild.reportFile =
        some (.file r.text.toUTF8.toList) ∧
      r.changes = changed.map (changedFile state) ++ rest ∧
      changed.map (changedFile state) ≠ changed.map (toldApart edited.files names) := by
  obtain ⟨hprinted, hfinds⟩ := findsRecorded_edited
  obtain hskip | ⟨out, state, names, diff, r, rest, hout, hload, hnames, hdiff, hfile, hchanges, -,
    hapart⟩ := changes_not_told_apart rfl (exec_eq_of_isOk isOk_edited)
  · exact absurd (congrArg World.printed hskip) hprinted
  · have hany : nestedBuild.findsRecorded edited.files = .ok _ :=
      Except.bind_ok_iff.2 ⟨out, hout, Except.bind_ok_iff.2 ⟨state, hload,
        Except.bind_ok_iff.2 ⟨names, hnames, Except.bind_ok_iff.2 ⟨diff, hdiff, rfl⟩⟩⟩⟩
    rw [hany] at hfinds
    obtain ⟨f, hf, hname⟩ := List.any_eq_true.1 (Option.some.inj hfinds)
    exact ⟨state, names, diff.changed, r, rest, hfile, hchanges,
      fun h => hapart.1 h f hf (List.contains_iff_mem.1 hname)⟩

end Docsmith.Build
