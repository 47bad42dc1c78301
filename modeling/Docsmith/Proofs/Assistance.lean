/-
Builds with the assistant.

After its start a build may let the assistant write sources. The pages then show what was read at
the start, or what the assistant left (`project_assisted`). As long as the sources stay what they
were, a build leaves behind what belongs to them, with the assistant or without (`built_of_run`).
-/
import Docsmith.Proofs.Convergence

namespace Docsmith.Build

open Snapshot Project
open FileTree (Grown)

variable {b : Build} {s s' : Start} {out : List String} {w w' w₁ w₂ : World}

/-! ## What the assistant leaves -/

def assistant (b : Build) (w : World) : Assistant :=
  let config := b.settings.assistant
  ⟨config.key w.env, config.model, config.style, config.maxTokens⟩

def filledReport (r : Report) (changes : List Change) : Report :=
  { r with aiFilledCount := changes.length, changes := r.changes ++ changes }

def stoppedReport (r : Report) (e : Fault) : Report :=
  { r with errors := r.errors ++ ["AI fill failed: " ++ e.message] }

/-- What comes of a start when the assistant fills gaps. -/
inductive Assists (b : Build) (out : List String) (s : Start) (w : World) : Start → World → Prop
  /-- There is no key to ask with. -/
  | noKey : (b.assistant w).key.isGiven = false →
    Assists b out s w { s with report := { s.report with
      errors := s.report.errors ++ ["AI enabled but no GROQ_API_KEY found"] } } w
  /-- A file cannot be filled. -/
  | stopped {changes : List Change} {e : Fault} {w' : World} :
    (b.assistant w).key.isGiven = true →
    (fillFiles (b.assistant w) s.targets).exec w = (.ok (changes, some e), w') →
    Assists b out s w { s with report := stoppedReport (filledReport s.report changes) e } w'
  /-- Nothing is missing, or there is no answer. -/
  | nothing {w' : World} : (b.assistant w).key.isGiven = true →
    (fillFiles (b.assistant w) s.targets).exec w = (.ok ([], none), w') →
    Assists b out s w { s with report := filledReport s.report [] } w'
  /-- What was written cannot be read. -/
  | unreadable {changes : List Change} {e : Fault} {w' : World} :
    (b.assistant w).key.isGiven = true → changes ≠ [] →
    (fillFiles (b.assistant w) s.targets).exec w = (.ok (changes, none), w') →
    b.project out w'.files = .error e →
    Assists b out s w { s with report := stoppedReport (filledReport s.report changes) e } w'
  /-- The sources are read again. -/
  | reread {changes : List Change} {p : ProjectDoc} {w' : World} :
    (b.assistant w).key.isGiven = true → changes ≠ [] →
    (fillFiles (b.assistant w) s.targets).exec w = (.ok (changes, none), w') →
    b.project out w'.files = .ok p →
    Assists b out s w { s with project := p, report := filledReport s.report changes } w'

theorem assist_ok (h : (b.assist out s).exec w = (.ok s', w')) : Assists b out s w s' w' := by
  obtain ⟨_, _, hget, h⟩ := Action.exec_bind_ok.1 h
  cases hget
  dsimp only at h
  split at h
  next hkey =>
    cases h
    exact .noKey (by simpa [assistant] using hkey)
  next hkey =>
    have hkey : (b.assistant w).key.isGiven = true := by simpa [assistant] using hkey
    obtain ⟨⟨changes, failed⟩, w₂, hfill, h⟩ := Action.exec_bind_ok.1 h
    cases failed with
    | some e =>
      cases h
      exact .stopped hkey hfill
    | none =>
      dsimp only at h
      split at h
      next hnone =>
        cases h
        obtain rfl := List.isEmpty_iff.1 hnone
        exact .nothing hkey hfill
      next hsome =>
        have hchanges : changes ≠ [] := fun hn => hsome (List.isEmpty_iff.2 hn)
        obtain ⟨r, w₃, hread, h⟩ := Action.exec_bind_ok.1 h
        rw [Action.exec_attempt, Action.exec_ofFiles] at hread
        obtain ⟨hr, rfl⟩ := Prod.mk.inj hread
        obtain rfl := Except.ok.inj hr
        cases hproject : b.project out w₂.files with
        | error e =>
          rw [hproject] at h
          cases h
          exact .unreadable hkey hchanges hfill hproject
        | ok p =>
          rw [hproject] at h
          cases h
          exact .reread hkey hchanges hfill hproject

theorem project_assist (h : (b.assist out s).exec w = (.ok s', w')) :
    s'.report.format = s.report.format ∧
      (s'.project = s.project ∨ b.project out w'.files = .ok s'.project) := by
  cases assist_ok h with
  | noKey => exact ⟨rfl, .inl rfl⟩
  | stopped => exact ⟨rfl, .inl rfl⟩
  | nothing => exact ⟨rfl, .inl rfl⟩
  | unreadable => exact ⟨rfl, .inl rfl⟩
  | reread _ _ _ hread => exact ⟨rfl, .inr hread⟩

/-- **Pages show** what was read at the start of a build, or what the assistant left. -/
theorem project_assisted (h : (b.assisted out s).exec w = (.ok s', w')) :
    s'.report.format = s.report.format ∧ (s'.project = s.project ∨
      b.isAssisted = true ∧ b.project out w'.files = .ok s'.project) := by
  rw [assisted] at h
  split at h
  next hai =>
    obtain ⟨hformat, hproject⟩ := project_assist h
    exact ⟨hformat, hproject.imp_right fun hp => ⟨hai, hp⟩⟩
  next =>
    cases h
    exact ⟨rfl, .inl rfl⟩

/-! ## What a build leaves that has started -/

section Started

variable (hsource : b.source.Proper) (houtput : b.output.Proper) (hw : w.files.WellFormed)
  (hkept : Kept w.files b.stateFile)
  (hstart : (b.startIncremental out).exec w = (.ok (some s), w₁))

include hsource houtput hw hkept hstart

/-- However a build ends after its start, it leaves the state that it has saved. -/
theorem find?_stateFile_proceed :
    ∃ v, Describes w.files (sourceFiles w.files b.source out) v ∧
      ((b.proceed out s).exec w₁).2.files.find? b.stateFile =
        some (.file (text ⟨b.stateFile, v⟩).toUTF8.toList) := by
  obtain ⟨-, -, v, t, -, -, -, -, hdescribes, ht, rfl, -, htargets, -⟩ :=
    startIncremental_some hw hkept hstart
  have hleaf := isLeaf_stateFile houtput
  obtain ⟨hwt, hgt, hfolder, htext⟩ := Page.writePage_spec hw hleaf ht
  obtain ⟨-, hg⟩ := grows_proceed hsource houtput hw htargets { w with files := t } hwt hgt.cwd
  refine ⟨v, hdescribes, hg.find? (fun hname => hname ?_)
    (FileTree.find?_eq_some.2 ⟨?_, hgt.place_eq _ ▸ htext⟩)⟩
  · rw [place_stateFile, List.getLast?_concat]
  · rw [hleaf.gap?_parent]
    exact (FileTree.isFolder_iff.1 hfolder).1

theorem grown_assisted (h : (b.assisted out s).exec w₁ = (.ok s', w₂)) :
    w₂.files.WellFormed ∧ Grown (fun loc => loc = w.files.place b.stateFile ∨
      isSourceName (loc.getLast?.getD "") = true) (fun _ => True) w.files w₂.files := by
  obtain ⟨-, -, v, t, -, -, -, -, -, ht, rfl, -, htargets, -⟩ :=
    startIncremental_some hw hkept hstart
  obtain ⟨hwt, hgt, -, -⟩ := Page.writePage_spec hw (isLeaf_stateFile houtput) ht
  obtain ⟨hw₂, hg₂⟩ := grows_assisted hsource hw htargets { w with files := t } hwt hgt.cwd
  rw [h] at hw₂ hg₂
  exact ⟨hw₂, .trans (hgt.mono (fun _ => .inl) fun _ _ => trivial)
    (hg₂.mono (fun _ => .inr) fun _ h => h)⟩

/-- **A build with the assistant** leaves behind what belongs to the sources if they are in the end
what they were. -/
theorem built_of_proceed (h : (b.proceed out s).exec w₁ = (.ok (), w'))
    (hsame : SameSources w.files w'.files b.source out) :
    w'.files.WellFormed ∧ Grown (fun _ => True) (fun _ => True) w.files w'.files ∧
      Built b out w.files w'.files := by
  obtain ⟨s', w₂, hassisted, hfinish⟩ := Action.exec_bind_ok.1 h
  obtain ⟨hw₂, hg₂⟩ := grown_assisted hsource houtput hw hkept hstart hassisted
  obtain ⟨ps, hps, hw', hg', hin, hreport, hwritable, -⟩ := finish_spec hw₂ houtput hfinish
  have hg : Grown (fun _ => True) (fun _ => True) w.files w'.files :=
    .trans (hg₂.mono (fun _ _ => trivial) fun _ h => h)
      (hg'.mono (fun _ _ => trivial) fun _ _ => trivial)
  obtain ⟨v, hdescribes, hstate⟩ := find?_stateFile_proceed hsource houtput hw hkept hstart
  rw [h] at hstate
  obtain ⟨-, -, -, -, -, -, -, -, -, -, -, hproject, -, hformat⟩ :=
    startIncremental_some hw hkept hstart
  obtain ⟨hformat', hshown⟩ := project_assisted hassisted
  rw [hformat', hformat] at hwritable
  refine ⟨hw', hg, hg.cwd, hw, ⟨s'.project, ps, ?_, hps, hin⟩, ⟨_, hreport⟩, hwritable, v,
    hdescribes, hstate⟩
  rcases hshown with hstill | ⟨-, hread⟩
  · rw [hstill, hproject]
  · -- what the assistant left are the sources of the end, and those are the ones of the start
    have hsame₂ := hsame.before hw hw₂ hw' hg₂ hg' fun _ hloc => (isOutput_written hps hloc).1
    rw [← hread, project_of_sameSources hw hw' hsame, project_of_sameSources hw₂ hw' hsame₂]

end Started

theorem sameSources_run (hinc : b.isIncremental = true) (houtput : b.output.Proper)
    (hw : w.files.WellFormed) (hkept : Kept w.files b.stateFile)
    (hout : b.excluded = .ok out)
    (hassistant : b.isAssisted = true → SameSources w.files w'.files b.source out)
    (h : b.run.exec w = (.ok (), w')) : SameSources w.files w'.files b.source out := by
  cases hai : b.isAssisted with
  | true => exact hassistant hai
  | false =>
    obtain ⟨out', hout', ⟨rfl, -⟩ | hre⟩ := run_spec hinc hai houtput hw hkept h
    · exact fun _ _ => .rfl
    · obtain rfl : out = out' := Except.ok.inj (hout.symm.trans hout')
      exact hre.sameSources

/-- **An incremental build that keeps the sources** has found nothing to do, or it leaves everything
behind that belongs to them. -/
theorem built_of_run (hinc : b.isIncremental = true) (hsource : b.source.Proper)
    (houtput : b.output.Proper) (hw : w.files.WellFormed)
    (hkept : Kept w.files b.stateFile) (hout : b.excluded = .ok out)
    (hsame : SameSources w.files w'.files b.source out)
    (h : b.run.exec w = (.ok (), w')) :
    (w' = { w with printed := w.printed ++ [skipNotice] } ∧
        ∀ v d, load w.files b.stateFile = .ok ⟨b.stateFile, v⟩ → Holds v d →
          Current w.files (sourceFiles w.files b.source out) d) ∨
      w'.files.WellFormed ∧ Grown (fun _ => True) (fun _ => True) w.files w'.files ∧
        Built b out w.files w'.files := by
  obtain ⟨out', hout', hskip | ⟨s, w₁, hstart, hproceed⟩⟩ := (run_ok hinc).1 h
  all_goals obtain rfl : out = out' := Except.ok.inj (hout.symm.trans hout')
  · exact .inl (startIncremental_none hkept hskip)
  · exact .inr (built_of_proceed hsource houtput hw hkept hstart hproceed hsame)

end Docsmith.Build
