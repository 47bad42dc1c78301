/-
What the pages of a build with the assistant show.

The assistant rewrites sources one after the other, up to the first one that it fails at, and they
are read again only if it gets through all of them. So the pages show the sources as they are in the
end unless something stops the assistant (`fillFault`); then they show them as they were at the
start, and what the assistant has written until then is missing (`project_shown`).
-/
import Docsmith.Proofs.Assistance

namespace Docsmith.Build

open Project
open FileTree (Grown)

variable {b : Build} {s s' : Start} {out : List String} {w w' w₁ w₂ : World}

def pagesOf (b : Build) (out : List String) (t : FileTree) :
    Except Fault (List (Path × String)) := do
  let project ← b.project out t
  Page.pages (.ofValue b.format) project b.output

/-- What stops the assistant, if anything does: it cannot fill a file, or what it wrote cannot be
read. -/
def fillFault (b : Build) (out : List String) (s : Start) (w : World) : Option Fault :=
  if !(b.assistant w).key.isGiven then none
  else
    match (fillFiles (b.assistant w) s.targets).exec w with
    | (.error e, _) => some e
    | (.ok (_, some e), _) => some e
    | (.ok (changes, none), w') =>
      if changes.isEmpty then none
      else
        match b.project out w'.files with
        | .error e => some e
        | .ok _ => none

/-- What a build with the assistant leaves that has started: pages of the sources as they are in the
end or, if something stopped the assistant, as they were before; then also a report that says so.
Other files than these, the state and sources are not written. -/
structure Shows (b : Build) (out : List String) (s : Start) (w w₁ w' : World)
    (ps : List (Path × String)) : Prop where
  pages : b.pagesOf out (if (b.fillFault out s w₁).isSome then w.files else w'.files) = .ok ps
  inPlace : Page.InPlace w'.files ps
  reported : ∀ e, b.fillFault out s w₁ = some e → ∃ r : Report,
    "AI fill failed: " ++ e.message ∈ r.errors ∧
    w'.files.at? (w'.files.place b.reportFile) = some (.file r.text.toUTF8.toList)
  written : Grown (fun loc => loc = w.files.place b.stateFile ∨
      (∃ f ∈ sourceFiles w.files b.source out, loc = w.files.place f) ∨
      loc = w.files.place b.reportFile ∨ ∃ page ∈ ps, loc = w.files.place page.1)
    (fun _ => True) w.files w'.files

/-! ## What the assistant leaves -/

theorem grown_of_fillFiles_nil {P Q : List String → Prop} {a : Assistant} {files : List Path}
    (hw : w.files.WellFormed) (h : (fillFiles a files).exec w = (.ok ([], none), w')) :
    w'.files.WellFormed ∧ Grown P Q w.files w'.files := by
  induction files generalizing w with
  | nil =>
    cases h
    exact ⟨hw, .refl _ _ _⟩
  | cons p files ih =>
    obtain ⟨r, w₁, hfill, h⟩ := Action.exec_bind_ok.1 h
    rw [Action.exec_attempt] at hfill
    obtain ⟨hr, hw₁⟩ := Prod.mk.inj hfill
    cases r with
    | error e => cases h
    | ok ss =>
      obtain ⟨⟨changes, failed⟩, w₂, hrest, h⟩ := Action.exec_bind_ok.1 h
      obtain ⟨hpair, rfl⟩ := Prod.mk.inj h
      obtain ⟨hnil, rfl⟩ := Prod.mk.inj (Except.ok.inj hpair)
      obtain ⟨hss, rfl⟩ := List.append_eq_nil_iff.1 hnil
      obtain rfl := List.map_eq_nil_iff.1 hss
      obtain ⟨hwell₁, hg₁⟩ := Assistant.grown_of_fill_nil (P := P) (Q := Q) hw
        (Prod.ext (Except.ok.inj hr) hw₁)
      obtain ⟨hwell₂, hg₂⟩ := ih hwell₁ hrest
      exact ⟨hwell₂, hg₁.trans hg₂⟩

/-- **The assistant** is stopped by a fault, which is reported, and leaves what the start has read;
or what it leaves is what the sources document then. -/
theorem assist_cases (h : (b.assist out s).exec w = (.ok s', w')) :
    (∃ e, b.fillFault out s w = some e ∧ s'.project = s.project ∧
        "AI fill failed: " ++ e.message ∈ s'.report.errors) ∨
      b.fillFault out s w = none ∧ (b.project out w'.files = .ok s'.project ∨
        s'.project = s.project ∧ (w.files.WellFormed →
          Grown (fun _ => False) (fun _ => False) w.files w'.files)) := by
  cases assist_ok h with
  | noKey hkey =>
    refine .inr ⟨?_, .inr ⟨rfl, fun _ => .refl _ _ _⟩⟩
    rw [fillFault, hkey]
    rfl
  | stopped hkey hfill =>
    refine .inl ⟨_, ?_, rfl, List.mem_concat_self⟩
    rw [fillFault, hkey, hfill]
    rfl
  | nothing hkey hfill =>
    refine .inr ⟨?_, .inr ⟨rfl, fun hw => (grown_of_fillFiles_nil hw hfill).2⟩⟩
    rw [fillFault, hkey, hfill]
    rfl
  | unreadable hkey hchanges hfill hread =>
    refine .inl ⟨_, ?_, rfl, List.mem_concat_self⟩
    simp [fillFault, hkey, hfill, hchanges, hread]
  | reread hkey hchanges hfill hread =>
    refine .inr ⟨?_, .inl hread⟩
    simp [fillFault, hkey, hfill, hchanges, hread]

/-! ## What the pages show -/

theorem grown_assist (hsource : b.source.Proper) (hw : w.files.WellFormed)
    (hw₁ : w₁.files.WellFormed) (hcwd : w₁.files.cwd = w.files.cwd)
    (htargets : ∀ p ∈ s.targets, p ∈ sourceFiles w.files b.source out)
    (h : (b.assist out s).exec w₁ = (.ok s', w₂)) :
    w₂.files.WellFormed ∧ Grown (fun loc => ∃ f ∈ sourceFiles w.files b.source out,
      loc = w.files.place f) (fun _ => True) w₁.files w₂.files := by
  have hgrows : Action.Grows w.files.cwd (fun loc =>
      ∃ f ∈ sourceFiles w.files b.source out, loc = w.files.place f) (fun _ => True)
      (b.assist out s) :=
    grows_assist out (fun p hp => proper_source hw hsource (htargets p hp))
      fun p hp t ht => ⟨p, htargets p hp, by simp only [FileTree.place, ht]⟩
  have hgrown := hgrows w₁ hw₁ hcwd
  rwa [h] at hgrown

/-- Where only the state and then, after the assistant, only other files than sources are written,
what the assistant leaves is what the sources document in the end, unless it is stopped. -/
theorem project_shown {P Q Q₁ Q₂ : List String → Prop} (hw : w.files.WellFormed)
    (hw₁ : w₁.files.WellFormed) (hw₂ : w₂.files.WellFormed) (hw' : w'.files.WellFormed)
    (hgap : w.files.gap? b.source = none) (hproject : b.project out w.files = .ok s.project)
    (hg₁ : Grown (· = w.files.place b.stateFile) Q₁ w.files w₁.files)
    (h : (b.assist out s).exec w₁ = (.ok s', w₂)) (hg₂ : Grown P Q₂ w₁.files w₂.files)
    (hg₃ : Grown (fun loc => isSourceName (loc.getLast?.getD "") = false) Q
      w₂.files w'.files) :
    b.project out (if (b.fillFault out s w₁).isSome then w.files else w'.files) =
      .ok s'.project := by
  rcases assist_cases h with ⟨e, he, hstill, -⟩ | ⟨he, hread | ⟨hstill, hkept⟩⟩
  · rw [he, hstill]
    exact hproject
  · have hsame : SameSources w₂.files w'.files b.source out :=
      sameSources_of_grown hw₂ hw' hg₃ (fun _ h => h) fun _ => hg₂.gap? (hg₁.gap? hgap)
    rw [he, ← hread]
    exact (project_of_sameSources hw₂ hw' hsame).symm
  · -- nothing was asked for, or there was no answer
    have hg : Grown (fun loc => isSourceName (loc.getLast?.getD "") = false)
        (fun _ => True) w.files w'.files :=
      .trans (hg₁.mono (fun loc hloc => hloc ▸ isSourceName_stateFile b w.files) fun _ _ => trivial)
        (.trans ((hkept hw₁).mono (fun _ => False.elim) fun _ => False.elim)
          (hg₃.mono (fun _ h => h) fun _ _ => trivial))
    have hsame : SameSources w.files w'.files b.source out :=
      sameSources_of_grown hw hw' hg (fun _ h => h) fun _ => hgap
    rw [he, hstill, ← hproject]
    exact (project_of_sameSources hw hw' hsame).symm

theorem shows_of_proceed (hai : b.isAssisted = true) (hsource : b.source.Proper)
    (houtput : b.output.Proper) (hw : w.files.WellFormed) (hgap : w.files.gap? b.source = none)
    (hstart : (b.start out).exec w = (.ok (some s), w₁))
    (h : (b.proceed out s).exec w₁ = (.ok (), w')) : ∃ ps, Shows b out s w w₁ w' ps := by
  obtain ⟨hw₁, hg₁, hproject, htargets⟩ := start_some houtput hw hstart
  obtain ⟨s', w₂, hassisted, hfinish⟩ := Action.exec_bind_ok.1 h
  rw [assisted, if_pos hai] at hassisted
  obtain ⟨hw₂, hg₂⟩ := grown_assist hsource hw hw₁ hg₁.cwd htargets hassisted
  obtain ⟨ps, hps, hw', hg₃, hin, hreport, -, -⟩ := finish_spec hw₂ houtput hfinish
  refine ⟨ps, Except.bind_ok_iff.2 ⟨s'.project, ?_, hps⟩, hin, fun e he => ?_, ?_⟩
  · exact project_shown hw hw₁ hw₂ hw' hgap hproject hg₁ hassisted hg₂
      (hg₃.mono (fun _ hloc => (isOutput_written hps hloc).1) fun _ h => h)
  · rcases assist_cases hassisted with ⟨e', he', -, herror⟩ | ⟨hnone, -⟩
    · obtain rfl : e' = e := Option.some.inj (he'.symm.trans he)
      exact ⟨finalReport s' ps.length, herror, hreport⟩
    · rw [hnone] at he
      cases he
  · refine .trans (hg₁.mono (fun _ => .inl) fun _ h => h)
      (.trans (hg₂.mono (fun _ h => .inr (.inl h)) fun _ h => h) (hg₃.mono ?_ fun _ _ => trivial))
    rw [funext hg₂.place_eq, funext hg₁.place_eq]
    exact fun _ h => .inr (.inr h)

/-- **Pages show the sources as they are in the end**, unless something stops the assistant: then
they show them as they were at the start. -/
theorem pages_show_end_unless_stopped (hai : b.isAssisted = true) (hsource : b.source.Proper)
    (houtput : b.output.Proper) (hw : w.files.WellFormed) (hgap : w.files.gap? b.source = none)
    (h : b.run.exec w = (.ok (), w')) :
    (b.isIncremental = true ∧ w' = { w with printed := w.printed ++ [skipNotice] }) ∨
      ∃ out s w₁ ps, b.excluded = .ok out ∧ (b.start out).exec w = (.ok (some s), w₁) ∧
        Shows b out s w w₁ w' ps := by
  obtain ⟨out, hout, hnone | ⟨s, w₁, hstart, hproceed⟩⟩ := run_ok_start.1 h
  · exact .inl (start_none hnone)
  · obtain ⟨ps, hshows⟩ := shows_of_proceed hai hsource houtput hw hgap hstart hproceed
    exact .inr ⟨out, s, w₁, ps, hout, hstart, hshows⟩

/-! ## A source that is documented before another cannot be read -/

def fullAssisted : Build :=
  { nestedBuild with
    output := .ofString "out"
    settings := { exclude := .list [.str ".git"] }
    isIncremental := false
    isAssisted := true }

/-- A source that lacks a docstring, for which the chat service has one, and another that is not
text. -/
def mixed : World where
  files := ⟨.ofString "/w", [(["w"], .folder), (["w", "src"], .folder),
    (["w", "src", "a.py"], .file "def f():\n    pass\n".toUTF8.toList),
    (["w", "src", "b.go"], .file [0xff])]⟩
  env := [("GROQ_API_KEY", "k")]
  replies := [.text "Doc."]

theorem sourceFiles_mixed : sourceFiles mixed.files fullAssisted.source [".git"] =
    [.ofString "src/a.py", .ofString "src/b.go"] := by
  have hfound : Language.allExtensions.flatMap
      (filesWith mixed.files fullAssisted.source [".git"]) =
      [.ofString "src/b.go", .ofString "src/a.py"] := by decide +kernel
  rw [sourceFiles, hfound, Path.sort_pair]
  decide +kernel

def mixedStart : Start :=
  fullAssisted.fullStart [.ofString "src/a.py", .ofString "src/b.go"]
    ((fullAssisted.project [".git"] mixed.files).toOption.getD { title := "", modules := [] })

def halfFilled : World := ((fullAssisted.proceed [".git"] mixedStart).exec mixed).2

theorem start_mixed (h : (fullAssisted.project [".git"] mixed.files).isOk = true) :
    (fullAssisted.start [".git"]).exec mixed = (.ok (some mixedStart), mixed) := by
  refine (start_full_ok rfl).2 ⟨rfl, ?_⟩
  rw [sourceFiles_mixed, mixedStart]
  cases hp : fullAssisted.project [".git"] mixed.files with
  | error e =>
    rw [hp] at h
    cases h
  | ok p => exact ⟨p, rfl, rfl⟩

/-- The texts of the pages of sources, if they have any. -/
def pageTexts (t : FileTree) : Option (List String) :=
  (fullAssisted.pagesOf [".git"] t).toOption.map (·.map Prod.snd)

/-- The pages lack the docstring that the build has put into the source. -/
theorem stopped_not_shown : ∃ ps, fullAssisted.run.exec mixed = (.ok (), halfFilled) ∧
    Page.InPlace halfFilled.files ps ∧
    fullAssisted.pagesOf [".git"] mixed.files = .ok ps ∧
    fullAssisted.pagesOf [".git"] halfFilled.files ≠ .ok ps := by
  obtain ⟨hwell, hgap, hproject, hok, hfault, hdiffers⟩ : mixed.files.WellFormed ∧
      (mixed.files.gap? fullAssisted.source).isNone = true ∧
      (fullAssisted.project [".git"] mixed.files).isOk = true ∧
      ((fullAssisted.proceed [".git"] mixedStart).exec mixed).1.isOk = true ∧
      (fullAssisted.fillFault [".git"] mixedStart mixed).isSome = true ∧
      pageTexts mixed.files ≠ pageTexts halfFilled.files := by decide +kernel
  have hstart := start_mixed hproject
  have hproceed : (fullAssisted.proceed [".git"] mixedStart).exec mixed =
      (.ok (), halfFilled) := by
    rw [halfFilled]
    exact exec_eq_of_isOk hok
  have hrun : fullAssisted.run.exec mixed = (.ok (), halfFilled) :=
    run_ok_start.2 ⟨[".git"], rfl, .inr ⟨_, _, hstart, hproceed⟩⟩
  rcases pages_show_end_unless_stopped rfl (Path.proper_ofString _) (Path.proper_ofString _) hwell
    (Option.isNone_iff_eq_none.1 hgap) hrun with
    ⟨hinc, -⟩ | ⟨out, s, w₁, ps, hout, hstart', hshows⟩
  · cases hinc
  · obtain rfl : [".git"] = out := Except.ok.inj hout
    obtain ⟨hs, rfl⟩ := Prod.mk.inj (hstart.symm.trans hstart')
    obtain rfl := Option.some.inj (Except.ok.inj hs)
    have hpages := hshows.pages
    rw [if_pos hfault] at hpages
    refine ⟨ps, hrun, hshows.inPlace, hpages, fun hend => hdiffers ?_⟩
    rw [pageTexts, pageTexts, hpages, hend]

end Docsmith.Build
