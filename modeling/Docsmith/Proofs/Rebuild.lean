/-
A build from afar: what it does to the files, and what it records.

Making the folder of the pages beforehand changes nothing about a build (`rebuild_makeFolders`). The
state that it leaves holds the digests of all Python files that are there with the pages, besides
what was recorded before (`recorded_of_rebuild`).
-/
import Docsmith.Proofs.Incremental
import Docsmith.Proofs.Languages
import Docsmith.Remote.Rebuild

namespace Docsmith

open Page Project Action Snapshot Build
open FileTree (Grown)

namespace Project

variable {t t' : FileTree} {dir : Path} {out : List String}

theorem isOk_python (ep : Bool) (t : FileTree) (dir : Path) (out : List String) :
    (ofLanguage .python ep t dir out).isOk = true := by
  refine (isOk_ofLanguage ep t dir out .python).2 ?_
  rintro f - hf ⟨_, -, ⟨-, -, hdeep⟩ | ⟨part, hpart, -⟩⟩
  · cases hdeep
  · rw [hf] at hpart
    cases hpart

theorem ofLanguage_makeFolders {output : Path} (lang : Language) (ep : Bool) (hdir : dir.Normal)
    (houtput : output.Proper) (ht : t.WellFormed) (h : t.makeFolders output = .ok t') :
    ofLanguage lang ep t' dir out = ofLanguage lang ep t dir out := by
  obtain ⟨hg, -, ht'⟩ := FileTree.makeFolders_spec ht houtput h
  refine (read_congr ?_ ht ht' (sameSources_of_grown ht ht' hg (fun _ => False.elim)
    fun _ => hdir.gap? t) ep).symm
  intro e he
  exact Language.mem_table.2 ((Language.mem_entries.1 he).2 ▸ (Language.mem_entries.1 he).1)

end Project

namespace Remote

variable {source output : Path} {f : Format} {w w' : World}

/-- What is left to do when the sources are read and the folder of the pages is there. -/
def complete (source output : Path) (f : Format) (project : ProjectDoc) : Action Outcome := do
  let files ← writeSite f project output
  record source output
  pure ⟨project.modules.length, files.length⟩

theorem exec_rebuild (source output : Path) (f : Format) (w : World) :
    ∃ project, ofLanguage .python false w.files source (excluded []) = .ok project ∧
      (rebuild source output f).exec w =
        (makeFolders output >>= fun _ => complete source output f project).exec w := by
  have hok := isOk_python false w.files source (excluded [])
  generalize hproject : ofLanguage .python false w.files source (excluded []) = r
    at hok
  cases r with
  | error e => cases hok
  | ok project =>
    refine ⟨project, rfl, ?_⟩
    rw [rebuild, exec_bind, exec_ofFiles, hproject]
    rfl

def pythonFiles (t : FileTree) (source : Path) : List Path :=
  t.search source fun name => ".py".toList.isSuffixOf name.toList

theorem record_ok {u : Unit} : (record source output).exec w = (.ok u, w') ↔
    ∃ s t, (load w.files (output / fileName) >>= fun s =>
        s.updateAll w.files (pythonFiles w.files source)) = .ok s ∧
      writePage w.files (s.path, s.text) = .ok t ∧ w' = { w with files := t } := by
  simp only [record, exec_bind_ok, exec_ofFiles, save_ok, Prod.mk.injEq]
  constructor
  · rintro ⟨s, _, ⟨hs, rfl⟩, t, ht, rfl⟩
    exact ⟨s, t, hs, ht, rfl⟩
  · rintro ⟨s, t, hs, ht, rfl⟩
    exact ⟨s, _, ⟨hs, rfl⟩, t, ht, rfl⟩

/-- **A build from afar** reads the Python files, writes the pages, and records the files that are
there then. -/
theorem rebuild_ok {made : Outcome} : (rebuild source output f).exec w = (.ok made, w') ↔
    ∃ project t₁ ps t₂ s t₃,
      ofLanguage .python false w.files source (excluded []) = .ok project ∧
      w.files.makeFolders output = .ok t₁ ∧ pages f project output = .ok ps ∧
      writePages t₁ ps = .ok t₂ ∧
      (load t₂ (output / fileName) >>= fun s =>
        s.updateAll t₂ (pythonFiles t₂ source)) = .ok s ∧
      writePage t₂ (s.path, s.text) = .ok t₃ ∧ w' = { w with files := t₃ } ∧
      made = ⟨project.modules.length, ps.length⟩ := by
  simp only [rebuild, exec_bind_ok, exec_ofFiles, exec_makeFolders_ok,
    writeSite_ok, record_ok, exec_pure, Prod.mk.injEq, Except.ok.injEq]
  constructor
  · rintro ⟨project, _, ⟨hproject, rfl⟩, -, _, ⟨t₁, h₁, rfl⟩, _, _, ⟨ps, t₂, hps, h₂, rfl, rfl⟩, -,
      _, ⟨s, t₃, hs, h₃, rfl⟩, rfl, rfl⟩
    exact ⟨project, t₁, ps, t₂, s, t₃, hproject, h₁, hps, h₂, hs, h₃, rfl, by rw [List.length_map]⟩
  · rintro ⟨project, t₁, ps, t₂, s, t₃, hproject, h₁, hps, h₂, hs, h₃, rfl, rfl⟩
    exact ⟨project, _, ⟨hproject, rfl⟩, (), _, ⟨t₁, h₁, rfl⟩, ps.map Prod.fst, _,
      ⟨ps, t₂, hps, h₂, rfl, rfl⟩, (), _, ⟨s, t₃, hs, h₃, rfl⟩, by rw [List.length_map], rfl⟩

/-- **Making the folder of the pages first** changes nothing about a build. -/
theorem rebuild_makeFolders (hsource : source.Normal) (houtput : output.Proper)
    (hw : w.files.WellFormed) (f : Format) :
    (makeFolders output >>= fun _ => rebuild source output f).exec w =
      (rebuild source output f).exec w := by
  obtain ⟨project, hproject, hrebuild⟩ := exec_rebuild source output f w
  rw [hrebuild, exec_bind, exec_bind, makeFolders, exec_changeFiles]
  cases ht : w.files.makeFolders output with
  | error e => rfl
  | ok t =>
    obtain ⟨project', hproject', hagain⟩ := exec_rebuild source output f { w with files := t }
    have hsame : ofLanguage .python false t source (excluded []) =
        ofLanguage .python false w.files source (excluded []) :=
      ofLanguage_makeFolders .python false hsource houtput hw ht
    obtain rfl : project = project' :=
      Except.ok.inj (hproject.symm.trans (hsame.symm.trans hproject'))
    have hfolder := (FileTree.makeFolders_spec hw houtput ht).2.1
    dsimp only
    rw [hagain, exec_bind, makeFolders, exec_changeFiles]
    simp only [FileTree.makeFolders_eq hfolder]

/-! ## What is recorded -/

def stateFile (output : Path) : Path := ⟨output.root, output.parts ++ [fileName]⟩

theorem normal_stateFile (houtput : output.Normal) : (stateFile output).Normal := by
  refine ⟨houtput.1, fun x hx => ?_⟩
  rcases List.mem_append.1 hx with hx | hx
  · exact houtput.2 x hx
  · rw [List.mem_singleton.1 hx]
    decide

theorem pythonFiles_eq (t : FileTree) (source : Path) :
    pythonFiles t source = filesWith t source [] ".py" := by
  have hkeep : ∀ p : Path, (!isExcluded [] p) = true := by
    simp [isExcluded]
  rw [filesWith, List.filter_eq_self.2 fun p _ => hkeep p]
  rfl

theorem pythonFiles_subset (t : FileTree) (source : Path) :
    pythonFiles t source ⊆ sourceFiles t source [] := fun g hg =>
  Path.mem_sort.2 (List.mem_flatMap.2 ⟨".py", by decide, pythonFiles_eq t source ▸ hg⟩)

/-- The Python files that a build documents: those that are not left out. -/
def considered (t : FileTree) (source : Path) : List Path :=
  filesWith t source (excluded []) ".py"

theorem mem_considered {t : FileTree} {g : Path} : g ∈ considered t source ↔
    g ∈ pythonFiles t source ∧ isExcluded (excluded []) g = false := by
  simp only [considered, filesWith, pythonFiles, List.mem_filter, Bool.not_eq_true']

section Grown

variable {P Q : List String → Prop} {t t' : FileTree} {g : Path}

theorem mem_pythonFiles_of_grown (ht : t.WellFormed) (ht' : t'.WellFormed) (h : Grown P Q t t')
    (hg : g ∈ pythonFiles t source) : g ∈ pythonFiles t' source := by
  rw [pythonFiles_eq, mem_filesWith ht] at hg
  obtain ⟨hd, hx, names, e, hne, rfl, ha, hs⟩ := hg
  rw [pythonFiles_eq, mem_filesWith ht', h.place_eq]
  rcases h.entry (t.place source ++ names) with he | ⟨-, hnone, -⟩ | ⟨-, -, bytes, he⟩
  · exact ⟨h.isFolder hd, hx, names, e, hne, rfl, he.trans ha, hs⟩
  · rw [ha] at hnone
    cases hnone
  · exact ⟨h.isFolder hd, hx, names, _, hne, rfl, he, hs⟩

/-- A new Python file is a folder that was made. -/
theorem mem_pythonFiles_before (ht : t.WellFormed) (ht' : t'.WellFormed) (h : Grown P Q t t')
    (hP : ∀ loc, P loc → isSourceName (loc.getLast?.getD "") = false)
    (hsource : source.Normal) (hg : g ∈ pythonFiles t' source) :
    g ∈ pythonFiles t source ∨ Q (t.place g) ∧ t.at? (t.place g) = none := by
  have hname := isSourceName_source ht' (pythonFiles_subset t' source hg)
  rw [pythonFiles_eq, mem_filesWith ht'] at hg
  obtain ⟨-, hx, names, e, hne, rfl, ha, hs⟩ := hg
  have hplace := place_source ht' ha
  rw [h.place_eq] at hname
  rw [h.place_eq, h.place_eq] at hplace
  rw [h.place_eq, ← hplace] at ha
  rcases h.entry (t.place ⟨source.root, source.parts ++ names⟩) with he | ⟨hq, hnone, -⟩ | ⟨hp, -⟩
  · rw [he, hplace] at ha
    have hd := FileTree.isFolder_iff.2 ⟨hsource.gap? t, ht.folder_above ha hne⟩
    rw [pythonFiles_eq]
    exact .inl ((mem_filesWith ht).2 ⟨hd, hx, names, e, hne, rfl, ha, hs⟩)
  · exact .inr ⟨hq, hnone⟩
  · rw [hP _ hp] at hname
    cases hname

theorem hashFile_pythonFile (ht : t.WellFormed) (ht' : t'.WellFormed) (h : Grown P Q t t')
    (hP : ∀ loc, P loc → isSourceName (loc.getLast?.getD "") = false)
    (hg : g ∈ pythonFiles t source) : hashFile t' g = hashFile t g := by
  have hfind := (sourceFiles_kept ht ht' h hP (pythonFiles_subset t source hg)).2
  exact hashFile_of_file_iff fun bytes => by rw [hfind]

end Grown

section State

variable {t t' : FileTree}

theorem writeState_spec {text : String} (ht : t.WellFormed) (houtput : output.Normal)
    (hfolder : t.isFolder output = true) (h : writePage t (stateFile output, text) = .ok t') :
    t'.WellFormed ∧ Grown (· = (stateFile output).parts) (fun _ => False) t t' ∧
      t.find? (stateFile output) ≠ some .folder ∧
      t'.find? (stateFile output) = some (.file text.toUTF8.toList) := by
  have hnormal := normal_stateFile houtput
  have hparent : (stateFile output).parent = output := by simp [Path.parent, stateFile]
  obtain ⟨ht', hg, -, htext⟩ := writePage_spec ht
    (isLeaf_append houtput.proper (by decide : Path.IsName fileName)) h
  dsimp only at hg htext
  rw [hparent, hnormal.place] at hg
  rw [hnormal.place] at htext
  rw [hnormal.find?_eq, hnormal.find?_eq]
  refine ⟨ht', hg.mono (fun _ h => h) fun loc hmade => ?_, fun hf => ?_, htext⟩
  · rw [hmade.1] at hfolder
    cases hfolder
  · rw [hg.folder hf] at htext
    cases htext

/-- **What a build does to the files**: it writes pages, and then the state of the Python files that
are there with the pages. -/
theorem rebuild_spec {made : Outcome} (hw : w.files.WellFormed) (houtput : output.Normal)
    (h : (rebuild source output f).exec w = (.ok made, w')) :
    ∃ t s, t.WellFormed ∧ Grown IsOutput (fun _ => True) w.files t ∧
      t.find? (stateFile output) = w.files.find? (stateFile output) ∧
      (load t (stateFile output) >>= fun s => s.updateAll t (pythonFiles t source)) =
        .ok s ∧
      w'.files.WellFormed ∧
      Grown (· = (stateFile output).parts) (fun _ => False) t w'.files ∧
      w'.files.find? (stateFile output) = some (.file s.text.toUTF8.toList) := by
  obtain ⟨project, t₁, ps, t₂, s, t₃, -, h₁, hps, h₂, hs, h₃, rfl, -⟩ := rebuild_ok.1 h
  obtain ⟨hg₁, hfolder, hw₁⟩ := FileTree.makeFolders_spec hw houtput.proper h₁
  obtain ⟨hw₂, hg₂, -⟩ := writePages_spec hw₁
    (fun page hpage => isLeaf_of_mem houtput.proper hps hpage) h₂
  have hg : Grown IsOutput (fun _ => True) w.files t₂ := by
    refine .trans (hg₁.mono (fun _ => False.elim) fun _ _ => trivial)
      (hg₂.mono ?_ fun _ _ => trivial)
    rintro loc ⟨page, hpage, rfl⟩
    obtain ⟨_, _, _, -, hfile⟩ := isPage_of_mem hps hpage
    exact isOutput_page hfile t₁
  have hpath : s.path = stateFile output := by
    obtain ⟨s₀, hload, hs⟩ := Except.bind_ok_iff.1 hs
    have hupdate : (s₀.updateAll t₂ (pythonFiles t₂ source) >>= fun s => s.removeAll t₂ []) =
        .ok s := by
      rw [hs]
      rfl
    exact (path_of_update hupdate).trans (path_of_load hload)
  rw [hpath] at h₃
  obtain ⟨hw₃, hg₃, hfree, htext⟩ := writeState_spec hw₂ houtput (hg₂.isFolder hfolder) h₃
  refine ⟨t₂, s, hw₂, hg, ?_, hs, hw₃, hg₃, htext⟩
  -- no page has the name of the state, and a folder in its place would be in the way
  have hnormal := normal_stateFile houtput
  rw [hnormal.find?_eq] at hfree
  rw [hnormal.find?_eq, hnormal.find?_eq]
  rcases hg.entry (stateFile output).parts with he | ⟨-, -, he⟩ | ⟨hp, -⟩
  · exact he
  · exact absurd he hfree
  · exact absurd (List.getLast?_concat ..) hp.2

/-- What a build records: the digests of all Python files that are there now, besides what was
recorded before. -/
structure Recorded (t : FileTree) (source : Path) (old new : String → Option String) : Prop where
  current : ∀ g ∈ pythonFiles t source, new (key t g) = some (hashFile t g)
  kept : ∀ name, name ∉ (pythonFiles t source).map (key t) → new name = old name

theorem Recorded.ne_none_iff {old new : String → Option String} (h : Recorded t source old new)
    {name : String} : new name ≠ none ↔
      old name ≠ none ∨ name ∈ (pythonFiles t source).map (key t) := by
  by_cases hname : name ∈ (pythonFiles t source).map (key t)
  · obtain ⟨g, hg, rfl⟩ := List.mem_map.1 hname
    simp [h.current g hg, hname]
  · simp [h.kept name hname, hname]

/-- **A build brings the state up to date** with the Python files that it leaves, and removes
nothing from it. -/
theorem recorded_of_rebuild {made : Outcome} (hw : w.files.WellFormed) (hsource : source.Normal)
    (houtput : output.Normal) (hkept : Kept w.files (stateFile output))
    (h : (rebuild source output f).exec w = (.ok made, w')) :
    ∃ v v' old new, load w.files (stateFile output) = .ok ⟨stateFile output, v⟩ ∧
      Holds v old ∧ Named old ∧
      load w'.files (stateFile output) = .ok ⟨stateFile output, v'⟩ ∧
      Holds v' new ∧ Recorded w'.files source old new ∧
      Kept w'.files (stateFile output) := by
  obtain ⟨t, s, ht, hg, hsame, hs, hw', hg', htext⟩ := rebuild_spec hw houtput h
  obtain ⟨v, old, hv, hold, hload, -⟩ := hkept.load
  obtain ⟨s₀, hload', hs⟩ := Except.bind_ok_iff.1 hs
  rw [load_congr hsame, hload] at hload'
  obtain rfl := Except.ok.inj hload'
  have hconsistent : Consistent t (pythonFiles t source) := fun g hg g' hg' =>
    consistent_sourceFiles ht source [] g (pythonFiles_subset t source hg) g'
      (pythonFiles_subset t source hg')
  obtain ⟨v', new, hv', hnew, hin, hout⟩ :=
    Holds.updateAll (s := ⟨stateFile output, v⟩) t hconsistent hv
  obtain rfl := Except.ok.inj (hv'.symm.trans hs)
  -- writing the state changes no Python file
  have hstate : ∀ loc, loc = (stateFile output).parts →
      isSourceName (loc.getLast?.getD "") = false := by
    rintro loc rfl
    rw [stateFile, List.getLast?_concat]
    decide
  have hmem : ∀ g, g ∈ pythonFiles w'.files source ↔ g ∈ pythonFiles t source := fun g =>
    ⟨fun hg => (mem_pythonFiles_before ht hw' hg' hstate hsource hg).resolve_right fun h => h.1,
      mem_pythonFiles_of_grown ht hw' hg'⟩
  have hkey := key_congr hg'.cwd
  have hrecorded : Recorded w'.files source old new := by
    refine ⟨fun g hg => ?_, fun name hname => hout name fun hn => hname ?_⟩
    · rw [hkey, hashFile_pythonFile ht hw' hg' hstate ((hmem g).1 hg), hin g ((hmem g).1 hg)]
    · obtain ⟨g, hg, rfl⟩ := List.mem_map.1 hn
      exact List.mem_map.2 ⟨g, (hmem g).2 hg, hkey g⟩
  refine ⟨v, v', old, new, hload, hv, hold, load_text hnew htext, hnew, hrecorded, ?_⟩
  intro bytes hbytes
  refine ⟨v', new, hnew, fun name hname => ?_, ?_⟩
  · rcases hrecorded.ne_none_iff.1 hname with hname | hname
    · exact hold name hname
    · obtain ⟨g, hg, rfl⟩ := List.mem_map.1 hname
      exact ⟨_, fun x hx => isName_source hw' (pythonFiles_subset _ _ hg) hx,
        key_eq w'.files g⟩
  · rw [htext] at hbytes
    exact (Entry.file.inj (Option.some.inj hbytes)).symm

/-- The Python files that a build leaves are those that it considered: exactly if none lies where
it is left out, and the build made no folder with the name of one. -/
theorem forall_key_considered_iff {P Q : List String → Prop} (ht : t.WellFormed)
    (ht' : t'.WellFormed) (h : Grown P Q t t') :
    (∀ g ∈ pythonFiles t' source,
        key t' g ∈ (considered t source).map (key t')) ↔
      (∀ g ∈ pythonFiles t source, isExcluded (excluded []) g = false) ∧
        ∀ g ∈ pythonFiles t' source, g ∈ pythonFiles t source := by
  have hkey : ∀ g ∈ pythonFiles t' source,
      key t' g ∈ (considered t source).map (key t') ↔
        g ∈ considered t source := by
    refine fun g hg => ⟨fun hkey => ?_, List.mem_map_of_mem⟩
    obtain ⟨g', hg', he⟩ := List.mem_map.1 hkey
    have hsource := pythonFiles_subset t source (mem_considered.1 hg').1
    rw [key_congr h.cwd g'] at he
    exact eq_of_key_eq ht ht' h.cwd hsource (pythonFiles_subset t' source hg) he ▸ hg'
  constructor
  · intro hall
    have hmem g hg := mem_considered.1 ((hkey g hg).1 (hall g hg))
    exact ⟨fun g hg => (hmem g (mem_pythonFiles_of_grown ht ht' h hg)).2, fun g hg => (hmem g hg).1⟩
  · rintro ⟨hshown, hsame⟩ g hg
    exact (hkey g hg).2 (mem_considered.2 ⟨hsame g hg, hshown g (hsame g hg)⟩)

/-- **When the state is that of the documented files.** After a build, none of the files that it
documented is found changed. But the state keeps what was recorded of files that are gone, and it
holds the files in folders that are left out, so that the state is exactly that of the documented
files, and a comparison with them empty, only if there are none of these. -/
theorem describes_considered_iff {made : Outcome} (hw : w.files.WellFormed)
    (hsource : source.Normal) (houtput : output.Normal)
    (hkept : Kept w.files (stateFile output))
    (h : (rebuild source output f).exec w = (.ok made, w')) :
    ∃ v v' old diff, load w.files (stateFile output) = .ok ⟨stateFile output, v⟩ ∧
      Holds v old ∧
      load w'.files (stateFile output) = .ok ⟨stateFile output, v'⟩ ∧
      Kept w'.files (stateFile output) ∧
      Snapshot.diff ⟨stateFile output, v'⟩ w'.files (considered w.files source) = .ok diff ∧
      diff.changed = [] ∧
      (Snapshot.Describes w'.files (considered w.files source) v' ↔ diff.deleted = []) ∧
      (diff.deleted = [] ↔
        (∀ name, old name ≠ none → name ∈ (considered w.files source).map (key w'.files)) ∧
        (∀ g ∈ pythonFiles w.files source, isExcluded (excluded []) g = false) ∧
        ∀ g ∈ pythonFiles w'.files source, g ∈ pythonFiles w.files source) := by
  obtain ⟨t, -, ht, hg, -, -, hw', hg', -⟩ := rebuild_spec hw houtput h
  obtain ⟨v, v', old, new, hload, hv, -, hload', hnew, hrecorded, hkept'⟩ :=
    recorded_of_rebuild hw hsource houtput hkept h
  have hgrown : Grown (fun _ => True) (fun _ => True) w.files w'.files :=
    .trans (hg.mono (fun _ _ => trivial) fun _ h => h)
      (hg'.mono (fun _ _ => trivial) fun _ => False.elim)
  have hin : ∀ g ∈ considered w.files source,
      new (key w'.files g) = some (hashFile w'.files g) := fun g hg =>
    hrecorded.current g (mem_pythonFiles_of_grown hw hw' hgrown (mem_considered.1 hg).1)
  obtain ⟨diff, hdiff, hchanged, -⟩ :=
    Holds.diff (s := ⟨stateFile output, v'⟩) w'.files hnew (considered w.files source)
  have hdeleted := Holds.deleted_eq_nil_iff (s := ⟨stateFile output, v'⟩) hnew hdiff
  refine ⟨v, v', old, diff, hload, hv, hload', hkept', hdiff, ?_, ?_, ?_⟩
  · rw [List.eq_nil_iff_forall_not_mem]
    intro g hg
    obtain ⟨hmem, hne⟩ := (hchanged g).1 hg
    rw [hin g hmem] at hne
    exact hne rfl
  · constructor
    · rintro ⟨d, hd, -, hnames⟩
      exact (Holds.deleted_eq_nil_iff (s := ⟨stateFile output, v'⟩) hd hdiff).2 hnames
    · exact fun hnil => ⟨new, hnew, hin, hdeleted.1 hnil⟩
  · rw [hdeleted, ← forall_key_considered_iff hw hw' hgrown]
    constructor
    · intro hall
      exact ⟨fun name hname => hall name (hrecorded.ne_none_iff.2 (.inl hname)), fun g hg =>
        hall _ (hrecorded.ne_none_iff.2 (.inr (List.mem_map_of_mem hg)))⟩
    · rintro ⟨hold, hfiles⟩ name hname
      rcases hrecorded.ne_none_iff.1 hname with hname | hname
      · exact hold name hname
      · obtain ⟨g, hg, rfl⟩ := List.mem_map.1 hname
        exact hfiles g hg

def projectFolder : Path := ⟨"/", ["p"]⟩

def pagesFolder : Path := ⟨"/", ["p", "docs"]⟩

theorem normal_projectFolder : projectFolder.Normal := ⟨rfl, by decide⟩

theorem normal_pagesFolder : pagesFolder.Normal := ⟨rfl, by decide⟩

/-- A source that is left out, next to pages with the state of a file that is gone. -/
def outdated : World :=
  { files := ⟨⟨"/", []⟩,
      [(["p"], .folder), (["p", "venv"], .folder), (["p", "venv", "v.py"], .file [34, 34]),
        (["p", "docs"], .folder), (["p", "docs", fileName],
          .file (text ⟨stateFile pagesFolder,
            .object [("/p/gone.py", .str "0")]⟩).toUTF8.toList)]⟩ }

theorem facts_outdated : outdated.files.WellFormed ∧
    ((rebuild projectFolder pagesFolder .markdown).exec outdated).1.isOk = true ∧
    pythonFiles outdated.files projectFolder = [⟨"/", ["p", "venv", "v.py"]⟩] ∧
    isExcluded (excluded []) ⟨"/", ["p", "venv", "v.py"]⟩ = true := by
  decide +kernel

theorem kept_outdated : Kept outdated.files (stateFile pagesFolder) := by
  intro bytes hbytes
  refine ⟨.object [("/p/gone.py", .str "0")], fun name => [("/p/gone.py", "0")].lookup name,
    ⟨[("/p/gone.py", "0")], by simp, rfl, fun _ => rfl⟩, fun name hname => ?_, ?_⟩
  · refine ⟨["p", "gone.py"], by decide, ?_⟩
    have hmem := mem_names_iff.2 hname
    exact List.mem_singleton.1 hmem
  · exact (Entry.file.inj (Option.some.inj hbytes)).symm

theorem not_describes_outdated : ∃ made w' v diff,
    (rebuild projectFolder pagesFolder .markdown).exec outdated = (.ok made, w') ∧
    load w'.files (stateFile pagesFolder) = .ok ⟨stateFile pagesFolder, v⟩ ∧
    Snapshot.diff ⟨stateFile pagesFolder, v⟩ w'.files (considered outdated.files projectFolder) =
      .ok diff ∧
    diff.deleted ≠ [] ∧
    ¬ Describes w'.files (considered outdated.files projectFolder) v := by
  obtain ⟨hw, hok, hfiles, hout⟩ := facts_outdated
  rcases hrun : (rebuild projectFolder pagesFolder .markdown).exec outdated with ⟨e | made, w'⟩
  · rw [hrun] at hok
    cases hok
  · obtain ⟨_, v', _, diff, -, -, hload, -, hdiff, -, hdescribes, hdeleted⟩ :=
      describes_considered_iff hw normal_projectFolder normal_pagesFolder kept_outdated hrun
    have hne : diff.deleted ≠ [] := fun hnil => by
      have hshown := (hdeleted.1 hnil).2.1 ⟨"/", ["p", "venv", "v.py"]⟩ (by rw [hfiles]; simp)
      rw [hout] at hshown
      cases hshown
    exact ⟨made, w', v', diff, rfl, hload, hdiff, hne, fun h => hne (hdescribes.1 h)⟩

end State

end Remote

end Docsmith
