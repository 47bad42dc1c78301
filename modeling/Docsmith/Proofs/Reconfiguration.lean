/-
Builds with other settings.

Whether an incremental build has anything to do depends on the digests of the files that it finds,
and not on the title, the format or the names that are hidden. After a build, another one into the
same folder is skipped if it finds the same files, and then the pages are still those of the first
(`rebuilt_or_skipped`).
-/
import Docsmith.Proofs.Assistance

namespace Docsmith.Build

open Snapshot Project

variable {b b₁ b₂ : Build} {out out₁ out₂ : List String} {w w₁ w₂ : World}

theorem exists_current (hinc : b.isIncremental = true) (hsource : b.source.Proper)
    (houtput : b.output.Proper) (hw : w.files.WellFormed)
    (hkept : Kept w.files b.stateFile) (hout : b.excluded = .ok out)
    (hsame : SameSources w.files w₁.files b.source out)
    (h : b.run.exec w = (.ok (), w₁)) :
    w₁.files.WellFormed ∧ Kept w₁.files b.stateFile ∧ ∃ v d,
      load w₁.files b.stateFile = .ok ⟨b.stateFile, v⟩ ∧ Holds v d ∧
      Current w₁.files (sourceFiles w₁.files b.source out) d := by
  rcases built_of_run hinc hsource houtput hw hkept hout hsame h with
    ⟨rfl, hcurrent⟩ | ⟨hw₁, hg, hbuilt⟩
  · obtain ⟨v, d, hv, -, hload, -⟩ := hkept.load
    exact ⟨hw, hkept, v, d, hload, hv, hcurrent v d hload hv⟩
  · obtain ⟨v, ⟨d, hv, hin, hnames⟩, hfile⟩ := hbuilt.state
    exact ⟨hw₁, hbuilt.kept, v, d, load_text hv hfile, hv,
      current_of_sameSources hw hw₁ hg hsame hin hnames⟩

/-- One state fits two lists of files only if they have the same files that can be read. -/
theorem sameFound_of_current {t : FileTree} {dir : Path} {d : String → Option String}
    (ht : t.WellFormed) (h₁ : Current t (sourceFiles t dir out₁) d)
    (h₂ : Current t (sourceFiles t dir out₂) d) :
    SameFound t dir out₁ out₂ := by
  have hstep : ∀ {o o' : List String}, Current t (sourceFiles t dir o) d →
      Current t (sourceFiles t dir o') d → ∀ {f bytes},
      t.find? f = some (.file bytes) → f ∈ sourceFiles t dir o →
      f ∈ sourceFiles t dir o' := by
    intro o o' h h' f bytes hbytes hf
    have hdigest := h.1 f hf
    rw [hashFile_of_file hbytes] at hdigest
    have hrecorded : d (key t f) ≠ none := fun hnone => by
      rw [hnone, Option.getD_none] at hdigest
      exact hexDigest_ne_empty bytes hdigest.symm
    obtain ⟨g, hg, hkey⟩ := List.mem_map.1 (h'.2 _ hrecorded)
    exact eq_of_key_eq ht ht rfl hg hf hkey ▸ hg
  exact fun f bytes hbytes => ⟨hstep h₁ h₂ hbytes, hstep h₂ h₁ hbytes⟩

/-- What the sources document depends on the title, on the names that are hidden and on the files
that are found. -/
theorem project_congr {t : FileTree} (hsource : b₂.source = b₁.source)
    (htitle : b₂.settings.title = b₁.settings.title)
    (hprivate : b₂.settings.excludePrivate = b₁.settings.excludePrivate)
    (h : SameFound t b₁.source out₁ out₂) : b₂.project out₂ t = b₁.project out₁ t := by
  rw [Build.project, Build.project, hsource, htitle, hprivate, h.ofAll_eq]

/-- The pages of a build are those of another one with the same title, hidden names and format. -/
theorem Built.agreesWithFull_of_sameFound (h : Built b₁ out₁ w.files w₁.files)
    (hw₁ : w₁.files.WellFormed) (hsame : SameSources w.files w₁.files b₁.source out₁)
    (hfiles : w₂.files = w₁.files) (hai : b₂.isAssisted = false) (hsource : b₂.source = b₁.source)
    (houtput : b₂.output = b₁.output) (hproper : b₁.output.Proper) (hout : b₂.excluded = .ok out₂)
    (htitle : b₂.settings.title = b₁.settings.title)
    (hprivate : b₂.settings.excludePrivate = b₁.settings.excludePrivate)
    (hformat : b₂.format = b₁.format) (hfound : SameFound w₁.files b₁.source out₁ out₂) :
    AgreesWithFull b₂ w₂ := by
  obtain ⟨project, ps, hproject, hps, hin⟩ := h.pages
  have hread : b₁.project out₁ w.files = b₁.project out₁ w₁.files :=
    project_of_sameSources h.wellFormed hw₁ hsame
  have hreport : b₂.reportFile = b₁.reportFile := by rw [reportFile, reportFile, houtput]
  rw [hread, ← project_congr hsource htitle hprivate hfound, ← hfiles] at hproject
  rw [← hformat, ← houtput] at hps
  refine agreesWithFull_of_inPlace hai (houtput ▸ hproper) hout (hfiles ▸ hw₁) hproject hps
    (hfiles ▸ hin) (hformat ▸ h.writable) ?_
  rw [hfiles, hreport]
  exact h.report

/-- What a build leaves does not depend on whether the assistant took part in it. -/
theorem Built.without_assistant {t₀ t : FileTree} (h : Built b out t₀ t) :
    Built { b with isAssisted := false } out t₀ t :=
  ⟨h.cwd, h.wellFormed, h.pages, h.report, h.writable, h.state⟩

/-- **Builds with other settings.** Let a build follow another one into the same folder while the
sources are not edited, by the assistant neither. It leaves the pages that a full build would write
if it finds other files, or if the first one wrote its pages with the same title, hidden names and
format. If it finds the same files, it is skipped. -/
theorem rebuilt_or_skipped (hinc₁ : b₁.isIncremental = true) (hinc₂ : b₂.isIncremental = true)
    (hsource : b₂.source = b₁.source) (houtput : b₂.output = b₁.output)
    (hproper : b₁.source.Proper ∧ b₁.output.Proper) (hw : w.files.WellFormed)
    (hkept : Snapshot.Kept w.files b₁.stateFile) (hout₁ : b₁.excluded = .ok out₁)
    (hout₂ : b₂.excluded = .ok out₂) (hrun₁ : b₁.run.exec w = (.ok (), w₁))
    (hrun₂ : b₂.run.exec w₁ = (.ok (), w₂))
    (hedit₁ : b₁.isAssisted = true → SameSources w.files w₁.files b₁.source out₁)
    (hedit₂ : b₂.isAssisted = true → SameSources w₁.files w₂.files b₂.source out₂) :
    (¬ SameFound w₁.files b₁.source out₁ out₂ ∨
        w₁.printed ≠ w.printed ++ [skipNotice] ∧ b₂.settings.title = b₁.settings.title ∧
          b₂.settings.excludePrivate = b₁.settings.excludePrivate ∧ b₂.format = b₁.format →
      AgreesWithFull { b₂ with isAssisted := false } w₂) ∧
    (sourceFiles w₁.files b₁.source out₁ = sourceFiles w₁.files b₁.source out₂ →
      w₂ = { w₁ with printed := w₁.printed ++ [skipNotice] }) := by
  have hstate : b₂.stateFile = b₁.stateFile := by rw [stateFile, stateFile, houtput]
  have hproper₂ : b₂.source.Proper ∧ b₂.output.Proper := by rwa [hsource, houtput]
  have hsame₁ := sameSources_run hinc₁ hproper.2 hw hkept hout₁ hedit₁ hrun₁
  obtain ⟨hw₁, hkept₁, v, d, hload, hv, hcurrent⟩ :=
    exists_current hinc₁ hproper.1 hproper.2 hw hkept hout₁ hsame₁ hrun₁
  rw [← hstate] at hkept₁ hload
  constructor
  · intro hcases
    have hsame₂ := sameSources_run hinc₂ hproper₂.2 hw₁ hkept₁ hout₂ hedit₂ hrun₂
    rcases built_of_run hinc₂ hproper₂.1 hproper₂.2 hw₁ hkept₁ hout₂ hsame₂ hrun₂ with
      ⟨rfl, hskip⟩ | ⟨hw₂, -, hbuilt⟩
    · -- skipped: the same files are found, and the pages are those of the first build
      have hfits := hskip v d hload hv
      rw [hsource] at hfits
      have hfound := sameFound_of_current hw₁ hcurrent hfits
      obtain ⟨hwrote, htitle, hprivate, hformat⟩ := hcases.resolve_left fun hn => hn hfound
      rcases built_of_run hinc₁ hproper.1 hproper.2 hw hkept hout₁ hsame₁ hrun₁ with
        ⟨rfl, -⟩ | ⟨-, -, hbuilt⟩
      · exact absurd rfl hwrote
      · exact hbuilt.agreesWithFull_of_sameFound hw₁ hsame₁ rfl rfl hsource houtput hproper.2 hout₂
          htitle hprivate hformat hfound
    · exact hbuilt.without_assistant.agreesWithFull rfl hproper₂.2 hout₂ hw₂ hsame₂
  · intro hfiles
    rw [hfiles, ← hsource] at hcurrent
    have hskips := (run_ok hinc₂).2
      ⟨out₂, hout₂, .inl (startIncremental_of_current hload hv hcurrent)⟩
    exact (Prod.mk.inj (hrun₂.symm.trans hskips)).2

/-- The build of one source under another title. -/
def retitled : Build := { nestedBuild with settings := { title := .str "New" } }

def rebuilt : World := (retitled.run.exec built).2

theorem facts_retitled : (retitled.run.exec built).1.isOk = true ∧
    (({ retitled with isIncremental := false } : Build).run.exec rebuilt).2.files.find?
        (Page.indexFile .markdown retitled.output) ≠
      rebuilt.files.find? (Page.indexFile .markdown retitled.output) := by
  decide +kernel

theorem run_retitled : retitled.run.exec built = (.ok (), rebuilt) := by
  rw [rebuilt]
  exact exec_eq_of_isOk facts_retitled.1

theorem rebuilt_skipped : rebuilt = { built with printed := built.printed ++ [skipNotice] } := by
  obtain ⟨out, hout₁, hout₂⟩ : ∃ out, nestedBuild.excluded = .ok out ∧
      retitled.excluded = .ok out := ⟨_, rfl, rfl⟩
  obtain ⟨-, hskips⟩ := rebuilt_or_skipped (rfl : nestedBuild.isIncremental = true)
    (rfl : retitled.isIncremental = true) rfl rfl
    ⟨Path.proper_ofString _, Path.proper_ofString _⟩ facts_unbuilt.1 kept_unbuilt hout₁ hout₂
    run_unbuilt run_retitled (fun hai => by cases hai) (fun hai => by cases hai)
  exact hskips rfl

/-- A full build would write the index under the new title. -/
theorem title_not_updated : ¬ ∀ (b₁ b₂ : Build) (w w₁ w₂ : World),
    b₁.isIncremental = true → b₂.isIncremental = true → b₁.isAssisted = false →
    b₂.isAssisted = false → b₂.source = b₁.source → b₂.output = b₁.output → b₁.output.Proper →
    w.files.WellFormed → w.files.at? (w.files.place b₁.output) = none →
    b₁.run.exec w = (.ok (), w₁) → b₂.run.exec w₁ = (.ok (), w₂) → AgreesWithFull b₂ w₂ := by
  intro hall
  obtain ⟨hw, hnone, -⟩ := facts_unbuilt
  obtain ⟨-, hindex⟩ := facts_retitled
  obtain ⟨out, project, w', -, -, hrun, hpages, -⟩ := hall nestedBuild retitled unbuilt built
    rebuilt rfl rfl rfl rfl rfl rfl (Path.proper_ofString _) hw hnone run_unbuilt run_retitled
  obtain ⟨bytes, hfull, hthere⟩ := hpages _ List.mem_cons_self
  rw [hrun] at hindex
  exact hindex (hfull.trans hthere.symm)

end Docsmith.Build
