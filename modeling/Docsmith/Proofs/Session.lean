/-
The life of a state. It is opened where there is none; then files are recorded in it and taken out
of it, and it is saved and opened again, any number of times and in any order, while other files
change.

A `Session` goes along with the digests that these operations record and save, and each of them
keeps the state and its file in agreement with these (`Session.faithful`): a state that is opened
holds the digests that were saved last. A comparison with files is exact (`Holds.exactDiff`), and a
state that is brought up to date with what it finds has nothing to find any more
(`Describes.diff_eq`).
-/
import Docsmith.Proofs.Snapshot

namespace Docsmith.Snapshot

open FileTree (Grown)

variable {path : Path} {d saved : String → Option String} {s s' : Snapshot} {w w' : World}

/-! ## Saving -/

theorem save_spec (hw : w.files.WellFormed) (hs : s.path.Proper) {u : Unit}
    (h : s.save.exec w = (.ok u, w')) :
    w'.files.WellFormed ∧ w'.files.cwd = w.files.cwd ∧
      w'.files.find? s.path = some (.file s.text.toUTF8.toList) := by
  simp only [save, Action.exec_bind_ok, Action.makeFolders, Action.writeText,
    Action.exec_changeFiles_ok] at h
  obtain ⟨-, _, ⟨t₁, hmake, rfl⟩, t₂, hwrite, rfl⟩ := h
  obtain ⟨hg₁, -, hw₁⟩ := FileTree.makeFolders_spec hw hs.parent hmake
  have hg₂ : Grown (fun _ => True) (fun _ => False) t₁ t₂ :=
    FileTree.grown_of_writeBytes hw₁ trivial hwrite
  refine ⟨hw₁.writeBytes hs hwrite, hg₂.cwd.trans hg₁.cwd, FileTree.find?_eq_some.2 ?_⟩
  obtain ⟨rfl, hgap, hn, -⟩ := FileTree.writeBytes_ok hw₁ hwrite
  refine ⟨hg₂.gap? hgap, ?_⟩
  rw [hg₂.place_eq]
  exact FileTree.at?_put_self t₁ _ (FileTree.ne_nil_of_at? hn)

/-- A state that could not be saved leaves the files as they were, unless something stands in its
place that is no file; then folders may have been made on the way to it. -/
theorem save_error (hw : w.files.WellFormed) (hs : s.path.Proper) {e : Fault}
    (h : s.save.exec w = (.error e, w')) :
    w' = w ∨ w'.files.WellFormed ∧ Grown (fun _ => False) (fun _ => True) w.files w'.files ∧
      ∀ bytes, w'.files.find? s.path ≠ some (.file bytes) := by
  rcases Action.exec_bind_error.1 h with hmake | ⟨_, w₂, hmake, hwrite⟩
  · rw [Action.makeFolders, Action.exec_changeFiles] at hmake
    split at hmake
    · cases hmake
    · exact .inl (Prod.mk.inj hmake).2.symm
  · obtain ⟨t, ht, rfl⟩ := Action.exec_changeFiles_ok.1 hmake
    obtain ⟨hg, -, hwt⟩ := FileTree.makeFolders_spec hw hs.parent ht
    rw [Action.writeText, Action.exec_changeFiles] at hwrite
    split at hwrite
    · cases hwrite
    next he =>
      obtain ⟨-, rfl⟩ := Prod.mk.inj hwrite
      refine .inr ⟨hwt, hg.mono (fun _ hf => hf) fun _ _ => trivial, fun bytes hbytes => ?_⟩
      -- a file that is there could have been written
      simp [FileTree.writeText, FileTree.writeBytes, hbytes] at he

/-! ## Sessions -/

/-- Operations on the state in a file, one after the other, with the digests that are recorded in it
and those that were saved last. In between, other files may change. -/
inductive Session (path : Path) :
    (String → Option String) → (String → Option String) → Snapshot → World → Prop
  | start {s : Snapshot} {w : World} : w.files.WellFormed → w.files.has path = false →
    load w.files path = .ok s → Session path (fun _ => none) (fun _ => none) s w
  | update {d saved : String → Option String} {s s' : Snapshot} {w : World} {p : Path} :
    Session path d saved s w → p.Proper → s.update w.files p = .ok s' →
    Session path (fun n => if n = key w.files p then some (hashFile w.files p) else d n) saved s' w
  | remove {d saved : String → Option String} {s s' : Snapshot} {w : World} {p : Path} :
    Session path d saved s w → s.remove w.files p = .ok s' →
    Session path (fun n => if n = key w.files p then none else d n) saved s' w
  | save {d saved : String → Option String} {s : Snapshot} {w w' : World} :
    Session path d saved s w → s.save.exec w = (.ok (), w') → Session path d d s w'
  | failedSave {d saved : String → Option String} {s : Snapshot} {w w' : World} {e : Fault} :
    Session path d saved s w → s.save.exec w = (.error e, w') → Session path d saved s w'
  | reopen {d saved : String → Option String} {s s' : Snapshot} {w : World} :
    Session path d saved s w → load w.files path = .ok s' → Session path saved saved s' w
  | edit {d saved : String → Option String} {s : Snapshot} {w w' : World} :
    Session path d saved s w → w'.files.WellFormed →
    w'.files.find? path = w.files.find? path → Session path d saved s w'

/-- A file that holds a state with some digests; for none it may be missing. -/
def Stores (tree : FileTree) (path : Path) (d : String → Option String) : Prop :=
  (∃ v, Holds v d ∧ tree.find? path = some (.file (text ⟨path, v⟩).toUTF8.toList)) ∨
    d = (fun _ => none) ∧ ∀ bytes, tree.find? path ≠ some (.file bytes)

theorem Stores.load {tree : FileTree} (h : Stores tree path d) :
    ∃ v, load tree path = .ok ⟨path, v⟩ ∧ Holds v d := by
  rcases h with ⟨v, hv, hfile⟩ | ⟨rfl, hnone⟩
  · exact ⟨v, load_text hv hfile, hv⟩
  · exact ⟨.map [], load_of_no_file hnone, holds_empty⟩

/-- What every operation keeps: the state holds what was recorded, and its file what was saved. -/
structure Faithful (path : Path) (d saved : String → Option String) (s : Snapshot) (w : World) :
    Prop where
  path_eq : s.path = path
  wellFormed : w.files.WellFormed
  holds : Holds s.hashes d
  named : Named d
  stored : Stores w.files path saved
  savedNamed : Named saved

namespace Faithful

theorem start (hw : w.files.WellFormed) (hnone : w.files.has path = false)
    (hload : load w.files path = .ok s) :
    Faithful path (fun _ => none) (fun _ => none) s w := by
  have hno : ∀ bytes, w.files.find? path ≠ some (.file bytes) := fun bytes hbytes => by
    rw [FileTree.has, hbytes] at hnone
    cases hnone
  obtain rfl : (⟨path, .map []⟩ : Snapshot) = s :=
    Except.ok.inj ((load_of_no_file hno).symm.trans hload)
  exact ⟨rfl, hw, holds_empty, fun _ hn => absurd rfl hn, .inr ⟨rfl, hno⟩,
    fun _ hn => absurd rfl hn⟩

theorem update (h : Faithful path d saved s w) {p : Path} (hp : p.Proper)
    (hs : s.update w.files p = .ok s') :
    Faithful path (fun n => if n = key w.files p then some (hashFile w.files p) else d n) saved
      s' w := by
  obtain ⟨v, hv, hhold⟩ := h.holds.update w.files p
  obtain rfl : ⟨s.path, v⟩ = s' := Except.ok.inj (hv.symm.trans hs)
  refine { h with path_eq := h.path_eq, holds := hhold, named := fun name hn => ?_ }
  by_cases hname : name = key w.files p
  · exact ⟨w.files.place p, fun _ hx => h.wellFormed.isName_place hp hx, hname⟩
  · simp only [if_neg hname] at hn
    exact h.named name hn

theorem remove (h : Faithful path d saved s w) {p : Path} (hs : s.remove w.files p = .ok s') :
    Faithful path (fun n => if n = key w.files p then none else d n) saved s' w := by
  obtain ⟨v, hv, hhold⟩ := h.holds.remove w.files p
  obtain rfl : ⟨s.path, v⟩ = s' := Except.ok.inj (hv.symm.trans hs)
  refine { h with path_eq := h.path_eq, holds := hhold, named := fun name hn => ?_ }
  by_cases hname : name = key w.files p
  · exact absurd (if_pos hname) hn
  · simp only [if_neg hname] at hn
    exact h.named name hn

theorem save (h : Faithful path d saved s w) (hpath : path.Proper)
    (hs : s.save.exec w = (.ok (), w')) : Faithful path d d s w' := by
  obtain ⟨p, v⟩ := s
  obtain rfl : p = path := h.path_eq
  obtain ⟨hw', -, hfile⟩ := save_spec h.wellFormed hpath hs
  exact { h with wellFormed := hw', stored := .inl ⟨v, h.holds, hfile⟩, savedNamed := h.named }

theorem failedSave (h : Faithful path d saved s w) (hpath : path.Proper) {e : Fault}
    (hs : s.save.exec w = (.error e, w')) : Faithful path d saved s w' := by
  obtain rfl : s.path = path := h.path_eq
  rcases save_error h.wellFormed hpath hs with rfl | ⟨hw', hg, hnone⟩
  · exact h
  · refine { h with wellFormed := hw', stored := ?_ }
    rcases h.stored with ⟨v, hv, hfile⟩ | ⟨hempty, -⟩
    · exact absurd (hg.find? (fun hf => hf) hfile) (hnone _)
    · exact .inr ⟨hempty, hnone⟩

theorem reopen (h : Faithful path d saved s w) (hload : load w.files path = .ok s') :
    Faithful path saved saved s' w := by
  obtain ⟨v, hv, hhold⟩ := h.stored.load
  obtain rfl : ⟨path, v⟩ = s' := Except.ok.inj (hv.symm.trans hload)
  exact { h with path_eq := rfl, holds := hhold, named := h.savedNamed }

theorem edit (h : Faithful path d saved s w) (hw' : w'.files.WellFormed)
    (hfile : w'.files.find? path = w.files.find? path) : Faithful path d saved s w' := by
  refine { h with wellFormed := hw', stored := ?_ }
  rw [Stores, hfile]
  exact h.stored

end Faithful

/-- **Every session is faithful.** -/
theorem Session.faithful (hpath : path.Proper) (h : Session path d saved s w) :
    Faithful path d saved s w := by
  induction h with
  | start hw hnone hload => exact .start hw hnone hload
  | update _ hp hs ih => exact ih.update hp hs
  | remove _ hs ih => exact ih.remove hs
  | save _ hs ih => exact ih.save hpath hs
  | failedSave _ hs ih => exact ih.failedSave hpath hs
  | reopen _ hload ih => exact ih.reopen hload
  | edit _ hw' hfile ih => exact ih.edit hw' hfile

/-- **A state survives in its file.** After any session the state holds the digests that were
recorded. One that is opened then holds those that were saved last, and one that is opened after
the state is saved is the state itself. -/
theorem reopened_eq_saved (hpath : path.Proper) (h : Session path d saved s w) :
    Holds s.hashes d ∧ (∃ v, load w.files path = .ok ⟨path, v⟩ ∧ Holds v saved) ∧
      ∀ w', s.save.exec w = (.ok (), w') → load w'.files path = .ok s := by
  have hf := h.faithful hpath
  refine ⟨hf.holds, hf.stored.load, fun w' hs => ?_⟩
  obtain ⟨p, v⟩ := s
  obtain rfl : p = path := hf.path_eq
  obtain ⟨-, -, hfile⟩ := save_spec hf.wellFormed hpath hs
  exact load_text hf.holds hfile

/-! ### A file with an odd name -/

/-- A name with quotes, a backslash, a line end and letters that are no ASCII. -/
def oddFile : Path := .ofString "é\"\\\n😀.py"

/-- A folder with a file of that name. -/
def oddWorld : World where
  files := ⟨.ofString "/w", [(["w"], .folder),
    (["w", "é\"\\\n😀.py"], .file "x = 1\n".toUTF8.toList)]⟩

/-- The state in which the file is recorded. -/
def oddState : Snapshot where
  path := .ofString "out/.autoredocs_state.json"
  hashes := .map [(.str (key oddWorld.files oddFile), .str (hashFile oddWorld.files oddFile))]

def oddSaved : World := (oddState.save.exec oddWorld).2

theorem proper_odd : oddState.path.Proper := Path.proper_ofString _

def oddDigests (name : String) : Option String :=
  if name = key oddWorld.files oddFile then some (hashFile oddWorld.files oddFile) else none

theorem session_odd : Session oddState.path oddDigests oddDigests oddState oddSaved := by
  obtain ⟨hw, hnone, hok⟩ : oddWorld.files.WellFormed ∧
      oddWorld.files.has oddState.path = false ∧ (oddState.save.exec oddWorld).1.isOk = true := by
    decide +kernel
  have hload : load oddWorld.files oddState.path = .ok ⟨oddState.path, .map []⟩ := by
    rw [load, hnone]
    rfl
  have hsave : oddState.save.exec oddWorld = (.ok (), oddSaved) := by
    rw [oddSaved]
    rcases h : oddState.save.exec oddWorld with ⟨_ | ⟨⟩, w'⟩
    · rw [h] at hok
      cases hok
    · rfl
  exact .save (.update (.start hw hnone hload) (Path.proper_ofString _) rfl) hsave

/-- The file is taken out of the state; as long as that is not saved, the state's file has it. -/
theorem reopened_odd : ∃ v, load oddSaved.files oddState.path = .ok ⟨oddState.path, v⟩ ∧
    Holds v oddDigests := by
  obtain ⟨s, hs, -⟩ := (session_odd.faithful proper_odd).holds.remove oddSaved.files oddFile
  exact (reopened_eq_saved proper_odd (.remove session_odd hs)).2.1

/-! ## Comparing and repairing -/

variable {tree : FileTree} {files : List Path}

theorem key_of_normal {p : Path} (h : p.Normal) (tree : FileTree) : key tree p = p.text := by
  have hkey := key_ofString h.2 tree
  rwa [← h.eq_ofPlace, h.ofString_text] at hkey

theorem map_key_of_normal (h : ∀ f ∈ files, f.Normal) (tree : FileTree) :
    files.map (key tree) = files.map Path.text :=
  List.map_congr_left fun f hf => key_of_normal (h f hf) tree

theorem consistent_of_normal (h : ∀ f ∈ files, f.Normal) (tree : FileTree) :
    Consistent tree files := by
  intro f hf g hg hkey
  rw [key_of_normal (h f hf), key_of_normal (h g hg)] at hkey
  rw [← (h f hf).ofString_text, hkey, (h g hg).ofString_text]

theorem Named.text_ofString (h : Named d) {name : String} (hn : d name ≠ none) :
    (Path.ofString name).text = name := by
  obtain ⟨loc, hloc, rfl⟩ := h name hn
  rw [Path.ofString_text hloc]

/-- The names that are recorded are those with a property, each once. -/
def Knows (s : Snapshot) (P : String → Prop) : Prop :=
  ∃ names, s.known = .ok names ∧ names.Nodup ∧ ∀ name, name ∈ names ↔ P name

/-- A comparison of files with digests that is exact. The files are split, in their order, by
whether the digest of a file is the one that is recorded, where none counts as empty; and each name that is
recorded of no file is given once. -/
structure ExactDiff (tree : FileTree) (files : List Path) (d : String → Option String) (r : Diff) :
    Prop where
  changed : r.changed = files.filter fun f => hashFile tree f ≠ (d f.text).getD ""
  unchanged : r.unchanged = files.filter fun f => hashFile tree f = (d f.text).getD ""
  once : (r.deleted.map Path.text).Nodup
  deleted : ∀ name, name ∈ r.deleted.map Path.text ↔ d name ≠ none ∧ name ∉ files.map Path.text

theorem Holds.exactDiff (h : Holds s.hashes d) (hd : Named d) (hfiles : ∀ f ∈ files, f.Normal)
    {r : Diff} (hr : s.diff tree files = .ok r) : ExactDiff tree files d r := by
  obtain ⟨names, hnames, hnodup, hmem⟩ := h.known
  obtain rfl := Except.ok.inj ((h.diff_eq tree hnames files).symm.trans hr)
  have hkey : ∀ f ∈ files, key tree f = f.text := fun f hf => key_of_normal (hfiles f hf) tree
  have hgone : ∀ name, name ∈ sorted (names.filter fun n => !(files.map (key tree)).contains n) ↔
      d name ≠ none ∧ name ∉ files.map Path.text := fun name => by
    simp [sorted, hmem, map_key_of_normal hfiles]
  -- a name is read as a path and written again
  have htext : ((sorted (names.filter fun n => !(files.map (key tree)).contains n)).map
      Path.ofString).map Path.text =
      sorted (names.filter fun n => !(files.map (key tree)).contains n) := by
    rw [List.map_map]
    refine (List.map_congr_left fun name hname => ?_).trans (List.map_id _)
    exact hd.text_ofString ((hgone name).1 hname).1
  refine ⟨List.filter_congr fun f hf => ?_, List.filter_congr fun f hf => ?_, ?_, fun name => ?_⟩
  · rw [hkey f hf, Bool.eq_iff_iff, Bool.not_eq_true', beq_eq_false_iff_ne, decide_eq_true_eq]
    exact ne_comm
  · rw [hkey f hf, Bool.eq_iff_iff, beq_iff_eq, decide_eq_true_eq]
    exact eq_comm
  · rw [htext]
    exact (List.mergeSort_perm _ _).symm.nodup (hnodup.filter _)
  · rw [htext, hgone]

theorem Describes.diff_eq (h : Describes tree files s.hashes) :
    s.diff tree files = .ok { changed := [], unchanged := files, deleted := [] } := by
  obtain ⟨d, hd, hin, hnames⟩ := h
  obtain ⟨names, hknown, -, hmem⟩ := hd.known
  have hsame : ∀ f ∈ files, ((d (key tree f)).getD "" == hashFile tree f) = true := fun f hf => by
    rw [hin f hf, Option.getD_some, beq_self_eq_true]
  have hgone : names.filter (fun n => !(files.map (key tree)).contains n) = [] := by
    refine List.filter_eq_nil_iff.2 fun name hn => ?_
    simpa using hnames name ((hmem name).1 hn)
  rw [hd.diff_eq tree hknown, hgone, List.filter_eq_self.2 hsame,
    List.filter_eq_nil_iff.2 fun f hf => by rw [hsame f hf]; decide]
  simp [sorted]

/-- **Comparing is exact, and its repair is complete.** A state of any session, compared with any
files of any tree, gives an exact comparison. After the digests of all the files are recorded and
the others removed, the names of the files are recorded, and a second comparison finds nothing to
do. -/
theorem diff_exact_and_repaired (hpath : path.Proper) (h : Session path d saved s w)
    (tree : FileTree) (hfiles : ∀ f ∈ files, f.Normal) :
    Knows s (fun name => d name ≠ none) ∧ ∃ r, s.diff tree files = .ok r ∧
      ExactDiff tree files d r ∧ ∃ s' : Snapshot,
        (s.updateAll tree files >>= fun s => s.removeAll tree r.deleted) = .ok s' ∧
        Knows s' (fun name => name ∈ files.map Path.text) ∧
        s'.diff tree files = .ok { changed := [], unchanged := files, deleted := [] } := by
  have hf := h.faithful hpath
  obtain ⟨r, hr, -⟩ := hf.holds.diff tree files
  obtain ⟨v, hv, hdescribes⟩ := describes_of_diff hf.holds hf.named
    (consistent_of_normal hfiles tree) hr
  refine ⟨hf.holds.known, r, hr, hf.holds.exactDiff hf.named hfiles hr, _, hv, ?_,
    hdescribes.diff_eq (s := ⟨s.path, v⟩)⟩
  obtain ⟨d', hd', hin, hnames⟩ := hdescribes
  obtain ⟨names, hknown, hnodup, hmem⟩ := Holds.known (s := ⟨s.path, v⟩) hd'
  refine ⟨names, hknown, hnodup, fun name => ?_⟩
  rw [hmem, ← map_key_of_normal hfiles tree]
  refine ⟨hnames name, fun hname => ?_⟩
  obtain ⟨f, hf, rfl⟩ := List.mem_map.1 hname
  rw [hin f hf]
  exact Option.some_ne_none _

/-- Two files that are not there, one of them twice. -/
def absentFiles : List Path :=
  [.ofPlace ["w", "a.py"], .ofPlace ["w", "b.py"], .ofPlace ["w", "a.py"]]

/-- They are compared with a state in which another one is recorded. -/
theorem repaired_odd : ∃ r, oddState.diff oddSaved.files absentFiles = .ok r ∧
    ∃ s' : Snapshot, (oddState.updateAll oddSaved.files absentFiles >>=
      fun s => s.removeAll oddSaved.files r.deleted) = .ok s' ∧
      Knows s' (fun name => name ∈ ["/w/a.py", "/w/b.py", "/w/a.py"]) ∧
      s'.diff oddSaved.files absentFiles =
        .ok { changed := [], unchanged := absentFiles, deleted := [] } := by
  have hfiles : ∀ f ∈ absentFiles, f.Normal := by
    simp only [absentFiles, List.mem_cons, List.not_mem_nil, or_false]
    rintro f (rfl | rfl | rfl)
    all_goals exact ⟨rfl, by decide⟩
  obtain ⟨-, r, hr, -, s', hs', hknows, hagain⟩ :=
    diff_exact_and_repaired proper_odd session_odd oddSaved.files hfiles
  exact ⟨r, hr, s', hs', hknows, hagain⟩

end Docsmith.Snapshot
