/-
How the files of a project are gone through. The scan lists them in the order of their paths; reading
goes from extension to extension (`order`) and stops behind the first file that is not documented
(`calls_eq`). As no extension ends in another, no file is met twice.
-/
import Docsmith.Proofs.Nameless
import Docsmith.Proofs.Project

namespace Docsmith

open Language List
open Language (table)

/-! ## How far a walk gets -/

section Reached

variable {α : Type} {ok : α → Bool} {xs : List α}

/-- The elements that a walk gets to: it stops behind the first that fails. -/
def reached (ok : α → Bool) : List α → List α
  | [] => []
  | x :: xs => x :: if ok x then reached ok xs else []

theorem reached_initial : reached ok xs <+: xs := by
  induction xs with
  | nil => exact prefix_refl []
  | cons x xs ih =>
    rw [reached]
    split
    · exact (prefix_cons_inj x).2 ih
    · exact (prefix_cons_inj x).2 List.nil_prefix

theorem reached_eq_self : reached ok xs = xs ↔ ∀ x ∈ xs.dropLast, ok x = true := by
  induction xs with
  | nil => simp [reached]
  | cons x xs ih =>
    rw [reached, cons.injEq]
    cases xs with
    | nil => simp [reached]
    | cons y xs =>
      rw [dropLast_cons_cons, forall_mem_cons, ← ih]
      cases ok x <;> simp

end Reached

namespace Language

variable {lang : Language} {ep : Bool} {tree : FileTree} {path : Path} {source : List Char}
  {m : ModuleDoc}

theorem ok_of_map_some {α : Type} {r : Except Fault α} {a : α} (h : r.map some = .ok (some a)) :
    r = .ok a := by
  cases r with
  | error e => cases h
  | ok b => cases h; rfl

theorem path_document [Machine] (h : lang.document ep path source = .ok (some m)) :
    m.path = path.text := by
  cases lang with
  | cpp | kotlin | ruby | rust | typescript => cases h; rfl
  | go =>
    have h := Except.ok.inj h
    rw [Go.document] at h
    split at h
    · cases h
    · cases h; rfl
  | python =>
    obtain ⟨body?, -, hm⟩ := Except.bind_ok_iff.1 h
    obtain ⟨body, -, rfl⟩ := Option.map_eq_some_iff.1 (Except.pure_ok_iff.1 hm)
    rfl
  | java =>
    obtain ⟨classes, -, hm⟩ := Except.bind_ok_iff.1 (ok_of_map_some h)
    obtain rfl := Except.pure_ok_iff.1 hm
    rfl
  | csharp =>
    obtain ⟨classes, -, hrest⟩ := Except.bind_ok_iff.1 (ok_of_map_some h)
    obtain ⟨structs, -, hm⟩ := Except.bind_ok_iff.1 hrest
    obtain rfl := Except.pure_ok_iff.1 hm
    rfl

theorem path_documentFile [Machine] (h : lang.documentFile ep tree path = .ok (some m)) :
    m.path = path.text := by
  rw [documentFile] at h
  split at h
  · cases h
  · split at h
    · exact path_document h
    · cases h

end Language

namespace Project

/-! ## Reading, whatever is done for a file -/

section Order

variable {m : Type → Type} [Monad m] (call : Language → Path → m (Option ModuleDoc))
  (exts : List (String × Language)) (tree : FileTree) (dir : Path) (out : List String)

/-- What a file documents as a part of a project, with any way to document it. -/
def moduleWith (f : Path × Language) : m (Option ModuleDoc) := do
  match ← call f.2 f.1 with
  | none => pure none
  | some m => pure (if m.isEmpty then none else some { m with name := moduleName dir f.1 m.name })

/-- What some files document together, with any way to document one. -/
def readWith : m ProjectDoc := do
  let groups ← exts.mapM fun e => do
    let ms ← (filesWith tree dir out e.1).mapM fun f => moduleWith call dir (f, e.2)
    pure (ms.filterMap id)
  pure { title := dir.name, modules := groups.flatten }

theorem readWith_eq [LawfulMonad m] : readWith call exts tree dir out =
    ProjectDoc.mk dir.name <$> collect (moduleWith call dir) (order exts tree dir out) := by
  rw [← collect_order]
  simp only [readWith, collect, Functor.map_map, bind_pure_comp]

end Order

/-! ## Which files are looked at -/

/-- Reading that notes the files that are looked at. -/
abbrev Noting (α : Type) : Type := ExceptT Fault (StateM (List Path)) α

/-- Documents a file and notes it. -/
def note [Machine] (ep : Bool) (tree : FileTree) (lang : Language) (f : Path) :
    Noting (Option ModuleDoc) :=
  ExceptT.mk fun seen => (lang.documentFile ep tree f, seen ++ [f])

/-- The files that are looked at when some files of a folder are read, one after the other. -/
def calls [Machine] (exts : List (String × Language)) (ep : Bool) (tree : FileTree) (dir : Path)
    (out : List String) : List Path :=
  ((readWith (note ep tree) exts tree dir out).run.run []).2

section Noting

variable {α β : Type} {a : Noting α} {k : α → Noting β} {x : α} {e : Fault} {seen seen' : List Path}

theorem run_bind_ok (h : a.run.run seen = (.ok x, seen')) :
    (a >>= k).run.run seen = (k x).run.run seen' := by
  rw [ExceptT.run_bind, StateT.run_bind, h]
  rfl

theorem run_bind_error (h : a.run.run seen = (.error e, seen')) :
    (a >>= k).run.run seen = (.error e, seen') := by
  rw [ExceptT.run_bind, StateT.run_bind, h]
  rfl

/-- One after the other: what the steps give, and the files up to the first that fails. -/
theorem run_mapM_note {f : α → Noting β} {r : α → Except Fault β} {g : α → Path}
    (h : ∀ x seen, (f x).run.run seen = (r x, seen ++ [g x])) (xs : List α) (seen : List Path) :
    (xs.mapM f).run.run seen =
      (xs.mapM r, seen ++ (reached (fun x => (r x).isOk) xs).map g) := by
  induction xs generalizing seen with
  | nil =>
    rw [reached, map_nil, append_nil]
    rfl
  | cons x xs ih =>
    have hx := h x seen
    rw [mapM_cons, mapM_cons, reached]
    cases hr : r x with
    | error e =>
      rw [hr] at hx
      exact run_bind_error hx
    | ok y =>
      rw [hr] at hx
      have hrest := ih (seen ++ [g x])
      rw [run_bind_ok hx]
      simp only [append_assoc, singleton_append] at hrest
      cases hys : xs.mapM r with
      | error e =>
        rw [hys] at hrest
        exact run_bind_error hrest
      | ok ys =>
        rw [hys] at hrest
        exact run_bind_ok hrest

end Noting

section Calls

variable [Machine] (exts : List (String × Language)) (ep : Bool) (tree : FileTree) (dir : Path)
  (out : List String)

theorem run_moduleWith_note (f : Path × Language) (seen : List Path) :
    (moduleWith (note ep tree) dir f).run.run seen =
      (moduleOf f.2 ep tree dir f.1, seen ++ [f.1]) := by
  have hcall : (note ep tree f.2 f.1).run.run seen =
      (f.2.documentFile ep tree f.1, seen ++ [f.1]) := rfl
  rw [moduleWith, moduleOf]
  rcases hdoc : f.2.documentFile ep tree f.1 with e | _ | m
  · rw [hdoc] at hcall
    exact run_bind_error hcall
  · rw [hdoc] at hcall
    exact run_bind_ok hcall
  · rw [hdoc] at hcall
    exact run_bind_ok hcall

/-- Noting changes nothing, and what is noted are the files of the order, up to the first that is not
documented. -/
theorem run_readWith_note : (readWith (note ep tree) exts tree dir out).run.run [] =
    (read exts ep tree dir out,
      (reached (fun f => (f.2.documentFile ep tree f.1).isOk)
        (order exts tree dir out)).map Prod.fst) := by
  have hrun := run_mapM_note (run_moduleWith_note ep tree dir) (order exts tree dir out) []
  simp only [isOk_moduleOf, nil_append] at hrun
  rw [readWith_eq, read_eq, collect, collect]
  simp only [ExceptT.run_map, StateT.run_map, hrun]
  rfl

theorem calls_eq : calls exts ep tree dir out =
    (reached (fun f => (f.2.documentFile ep tree f.1).isOk)
      (order exts tree dir out)).map Prod.fst := by
  rw [calls, run_readWith_note]

theorem calls_initial : calls exts ep tree dir out <+: (order exts tree dir out).map Prod.fst := by
  rw [calls_eq]
  exact reached_initial.map _

/-- All files are looked at exactly if none but the last fails to be documented. -/
theorem calls_eq_order_iff : calls exts ep tree dir out = (order exts tree dir out).map Prod.fst ↔
    ∀ f ∈ (order exts tree dir out).dropLast, ¬ f.2.Blocked ep tree f.1 := by
  simp only [calls_eq, ← isOk_documentFile_iff]
  rw [← reached_eq_self]
  refine ⟨fun h => reached_initial.eq_of_length ?_, fun h => by rw [h]⟩
  simpa using congrArg length h

theorem isOk_read_order : (read exts ep tree dir out).isOk = true ↔
    ∀ f ∈ order exts tree dir out, ¬ f.2.Blocked ep tree f.1 := by
  simp only [isOk_read, order, forall_mem_flatMap, forall_mem_map,
    isOk_documentFile_iff]

end Calls

/-! ## No file twice -/

theorem eq_of_isSuffixOf_allExtensions : ∀ ext ∈ allExtensions,
    ∀ ext' ∈ allExtensions, ext.toList.isSuffixOf ext'.toList = true → ext = ext' := by
  decide

theorem eq_of_isSuffixOf {ext ext' name : String} (h : ext ∈ allExtensions)
    (h' : ext' ∈ allExtensions) (hs : ext.toList.isSuffixOf name.toList = true)
    (hs' : ext'.toList.isSuffixOf name.toList = true) : ext = ext' := by
  rw [isSuffixOf_iff_suffix] at hs hs'
  rcases suffix_or_suffix_of_suffix hs hs' with hs | hs
  · exact eq_of_isSuffixOf_allExtensions ext h ext' h' (isSuffixOf_iff_suffix.2 hs)
  · exact (eq_of_isSuffixOf_allExtensions ext' h' ext h (isSuffixOf_iff_suffix.2 hs)).symm

section Scan

variable {t : FileTree} {dir : Path} {out : List String}

theorem map_fst_order (exts : List (String × Language)) :
    (order exts t dir out).map Prod.fst = (exts.map Prod.fst).flatMap (filesWith t dir out) := by
  simp [order, map_flatMap, flatMap_map, Function.comp_def]

theorem nodup_found (ht : t.WellFormed) :
    (allExtensions.flatMap (filesWith t dir out)).Nodup := by
  refine pairwise_flatMap.2
    ⟨fun ext _ => (FileTree.nodup_search ht dir _).filter _, ?_⟩
  have hdistinct : allExtensions.Nodup := by decide
  refine hdistinct.imp_of_mem fun {ext ext'} hext hext' hne f hf f' hf' heq => hne ?_
  subst heq
  obtain ⟨-, -, names, -, -, rfl, -, hs⟩ := (mem_filesWith ht).1 hf
  obtain ⟨-, -, names', -, -, hnames, -, hs'⟩ := (mem_filesWith ht).1 hf'
  obtain rfl : names = names' := append_cancel_left (Path.mk.inj hnames).2
  exact eq_of_isSuffixOf hext hext' hs hs'

theorem perm_order (t : FileTree) (dir : Path) (out : List String) :
    ((order table t dir out).map Prod.fst).Perm (sourceFiles t dir out) := by
  rw [map_fst_order]
  exact (mergeSort_perm _ _).symm

theorem nodup_sourceFiles (ht : t.WellFormed) : (sourceFiles t dir out).Nodup :=
  Path.nodup_sort (nodup_found ht)

/-- The scan goes strictly up in the order of paths. -/
theorem ascending_sourceFiles (ht : t.WellFormed) :
    (sourceFiles t dir out).Pairwise fun p q => p.before q = true := by
  refine ((Path.sort_ordered _).and (nodup_sourceFiles ht)).imp_of_mem fun {p q} hp hq h => ?_
  obtain ⟨-, -, names, -, -, rfl, -⟩ := (mem_sourceFiles ht).1 hp
  obtain ⟨-, -, names', -, -, rfl, -⟩ := (mem_sourceFiles ht).1 hq
  rw [← Bool.not_eq_false]
  exact fun hbefore => h.2 (Path.eq_of_not_before rfl hbefore h.1)

/-- Something below a folder. -/
def Below (t : FileTree) (dir f : Path) : Prop :=
  t.isFolder dir = true ∧ ∃ names e, names ≠ [] ∧ f = ⟨dir.root, dir.parts ++ names⟩ ∧
    t.at? (t.place dir ++ names) = some e

theorem mem_scan (ht : t.WellFormed) {f : Path} : f ∈ sourceFiles t dir out ↔
    Below t dir f ∧ isSourceName f.name = true ∧ isExcluded out f = false := by
  rw [mem_sourceFiles ht]
  constructor
  · rintro ⟨hdir, hkept, names, e, hne, rfl, he, hname⟩
    refine ⟨⟨hdir, names, e, hne, rfl, he⟩, ?_, hkept⟩
    rwa [Path.name, last_append _ hne]
  · rintro ⟨⟨hdir, names, e, hne, rfl, he⟩, hname, hkept⟩
    rw [Path.name, last_append _ hne] at hname
    exact ⟨hdir, hkept, names, e, hne, rfl, he, hname⟩

theorem nodup_texts (ht : t.WellFormed) : ((sourceFiles t dir out).map Path.text).Nodup := by
  refine pairwise_map.2 ((nodup_sourceFiles ht).imp_of_mem fun {f g} hf hg hne heq => hne ?_)
  obtain ⟨-, -, names, e, hnames, rfl, he, -⟩ := (mem_sourceFiles ht).1 hf
  obtain ⟨-, -, names', e', hnames', rfl, he', -⟩ := (mem_sourceFiles ht).1 hg
  have heq' := Path.text_below_inj hnames hnames'
    (fun x hx => ht.isName he (mem_append_right _ hx))
    (fun x hx => ht.isName he' (mem_append_right _ hx)) heq
  rw [heq']

end Scan

/-! ## What is documented -/

section Modules

variable [Machine] {t : FileTree} {dir : Path} {out : List String} {ep : Bool}

theorem path_moduleOf {lang : Language} {f : Path} {m : ModuleDoc}
    (h : moduleOf lang ep t dir f = .ok (some m)) : m.path = f.text := by
  rw [moduleOf] at h
  rcases hdoc : lang.documentFile ep t f with e | _ | d
  · rw [hdoc] at h
    cases h
  · rw [hdoc] at h
    cases h
  · rw [hdoc] at h
    have hpath := path_documentFile hdoc
    have h : (if d.isEmpty then none else some { d with name := moduleName dir f d.name }) =
        some m := Except.ok.inj h
    split at h
    · cases h
    · obtain rfl := Option.some.inj h
      exact hpath

/-- The modules of some files bear the paths of some of them, in their order. -/
theorem sublist_paths {fs : List (Path × Language)} {ms : List (Option ModuleDoc)}
    (h : fs.mapM (fun f => moduleOf f.2 ep t dir f.1) = .ok ms) :
    ((ms.filterMap id).map (·.path)).Sublist (fs.map fun f => f.1.text) := by
  induction fs generalizing ms with
  | nil =>
    obtain rfl := Except.pure_ok_iff.1 h
    exact .slnil
  | cons f fs ih =>
    simp only [mapM_cons, Except.bind_ok_iff, Except.pure_ok_iff] at h
    obtain ⟨m, hm, rest, hrest, rfl⟩ := h
    cases m with
    | none => exact (ih hrest).cons _
    | some m =>
      have hpath := path_moduleOf hm
      simp only [filterMap_cons, id, map_cons, hpath]
      exact (ih hrest).cons_cons _

theorem calls_perm_iff : (calls table ep t dir out).Perm (sourceFiles t dir out) ↔
    ∀ f ∈ (order table t dir out).dropLast, ¬ f.2.Blocked ep t f.1 := by
  rw [← calls_eq_order_iff]
  refine ⟨fun h => (calls_initial ..).eq_of_length ?_, fun h => h ▸ perm_order t dir out⟩
  rw [h.length_eq, (perm_order t dir out).length_eq]

/-- **The scan and the reading see the same files.** The scan goes strictly up and has exactly what
lies below the folder with a known extension and through no folder that is left out. What the reading
looks at, noted on the way, is in the scan, and nothing twice; it is all of the scan exactly if no
file before the last one is blocked. If the project is documented, its modules bear paths of the
scan, and no two the same. -/
theorem reads_what_it_scans (named : List String) (ep : Bool) {t : FileTree} (ht : t.WellFormed)
    (dir : Path) :
    (sourceFiles t dir (excluded named)).Pairwise (fun p q => p.before q = true) ∧
    (∀ f, f ∈ sourceFiles t dir (excluded named) ↔ Below t dir f ∧ isSourceName f.name = true ∧
      isExcluded (excluded named) f = false) ∧
    ((readWith (note ep t) table t dir (excluded named)).run.run []).1 =
      ofAll ep t dir (excluded named) ∧
    (calls table ep t dir (excluded named)).Nodup ∧
    (∀ f ∈ calls table ep t dir (excluded named),
      f ∈ sourceFiles t dir (excluded named)) ∧
    ((calls table ep t dir (excluded named)).Perm (sourceFiles t dir (excluded named)) ↔
      ∀ f ∈ (order table t dir (excluded named)).dropLast, ¬ f.2.Blocked ep t f.1) ∧
    ∀ p, ofAll ep t dir (excluded named) = .ok p →
      (calls table ep t dir (excluded named)).Perm (sourceFiles t dir (excluded named)) ∧
      (p.modules.map (·.path)).Nodup ∧
      ∀ m ∈ p.modules, m.path ∈ (sourceFiles t dir (excluded named)).map Path.text := by
  have horder := perm_order t dir (excluded named)
  have hinitial := calls_initial table ep t dir (excluded named)
  refine ⟨ascending_sourceFiles ht, fun f => mem_scan ht, by rw [run_readWith_note]; rfl,
    hinitial.sublist.nodup (horder.symm.nodup (nodup_sourceFiles ht)),
    fun f hf => horder.subset (hinitial.subset hf), calls_perm_iff, fun p hp => ?_⟩
  have hok : (ofAll ep t dir (excluded named)).isOk = true := by rw [hp]; rfl
  rw [ofAll, read_eq, collect, Functor.map_map, map_eq_pure_bind] at hp
  obtain ⟨ms, hms, hp⟩ := Except.bind_ok_iff.1 hp
  obtain rfl := Except.pure_ok_iff.1 hp
  have hpaths := sublist_paths hms
  have htexts := horder.map Path.text
  rw [map_map] at htexts
  refine ⟨calls_perm_iff.2 fun f hf => (isOk_read_order ..).1 hok f (dropLast_subset _ hf),
    hpaths.nodup (htexts.symm.nodup (nodup_texts ht)), fun m hm => ?_⟩
  exact htexts.subset (hpaths.subset (mem_map_of_mem hm))

end Modules

/-- Behind a blocked file nothing is looked at, though the scan has it; where no file is blocked all
of them are. -/
theorem reads_mixedParams : mixedParams.WellFormed ∧
    calls table false mixedParams (.ofString "/a") (excluded []) = [.ofString "/a/A.java"] ∧
    .ofString "/a/b.py" ∈ sourceFiles mixedParams (.ofString "/a") (excluded []) ∧
    ¬ (∀ f ∈ (order table mixedParams (.ofString "/a") (excluded [])).dropLast,
      ¬ f.2.Blocked false mixedParams f.1) ∧
    (ofAll false mixedParams (.ofString "/d") (excluded [])).isOk = true ∧
    (calls table false mixedParams (.ofString "/d") (excluded [])).Perm
      (sourceFiles mixedParams (.ofString "/d") (excluded [])) := by
  have hwf : mixedParams.WellFormed := by decide +kernel
  have hcalls : calls table false mixedParams (.ofString "/a") (excluded []) =
      [.ofString "/a/A.java"] := by decide +kernel
  have hscan : .ofString "/a/b.py" ∈ sourceFiles mixedParams (.ofString "/a") (excluded []) :=
    (perm_order ..).subset (by decide +kernel)
  obtain ⟨-, -, -, -, -, hall, -⟩ := reads_what_it_scans [] false hwf (.ofString "/a")
  obtain ⟨-, -, -, -, -, -, hread⟩ := reads_what_it_scans [] false hwf (.ofString "/d")
  obtain ⟨-, -, -, -, -, -, hok⟩ := runs_mixedParams
  refine ⟨hwf, hcalls, hscan, fun hfree => ?_, hok, ?_⟩
  · rw [hcalls] at hall
    have hmem := (hall.2 hfree).symm.subset hscan
    revert hmem
    decide
  · generalize hp : ofAll false mixedParams (.ofString "/d") (excluded []) = r at hok
    cases r with
    | error e => cases hok
    | ok p => exact (hread p hp).1

end Project

end Docsmith
