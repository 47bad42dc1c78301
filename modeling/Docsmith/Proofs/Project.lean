/-
The source files of a project: which there are (`mem_sourceFiles`), and what a project depends on.
Only the files that can be read count (`read_congr`), so that folders with the name of a source
file make no difference.
-/
import Docsmith.Project
import Docsmith.Proofs.FileTree

namespace Docsmith.Project

open Language FileTree Path List

def isSourceName (name : String) : Bool :=
  allExtensions.any fun ext => ext.toList.isSuffixOf name.toList

theorem last_append (loc : List String) {names : List String} (h : names ≠ []) :
    (loc ++ names).getLast?.getD "" = names.getLast?.getD "" := by
  rw [getLast?_append, getLast?_eq_some_getLast h, Option.some_or]

/-! ## Which files there are -/

section Files

variable {t t' : FileTree} {dir f : Path} {out : List String} (ht : t.WellFormed)

include ht

theorem mem_filesWith {ext : String} :
    f ∈ filesWith t dir out ext ↔ t.isFolder dir = true ∧ isExcluded out f = false ∧
      ∃ names e, names ≠ [] ∧ f = ⟨dir.root, dir.parts ++ names⟩ ∧
        t.at? (t.place dir ++ names) = some e ∧
        ext.toList.isSuffixOf (names.getLast?.getD "").toList = true := by
  simp only [filesWith, mem_filter, mem_search ht, Bool.not_eq_true']
  exact ⟨fun ⟨⟨hd, h⟩, hx⟩ => ⟨hd, hx, h⟩, fun ⟨hd, hx, h⟩ => ⟨⟨hd, h⟩, hx⟩⟩

theorem mem_sourceFiles :
    f ∈ sourceFiles t dir out ↔ t.isFolder dir = true ∧ isExcluded out f = false ∧
      ∃ names e, names ≠ [] ∧ f = ⟨dir.root, dir.parts ++ names⟩ ∧
        t.at? (t.place dir ++ names) = some e ∧ isSourceName (names.getLast?.getD "") = true := by
  simp only [sourceFiles, mem_sort, mem_flatMap, mem_filesWith ht, isSourceName,
    any_eq_true]
  constructor
  · rintro ⟨ext, hext, hd, hx, names, e, hne, hf, ha, hs⟩
    exact ⟨hd, hx, names, e, hne, hf, ha, ext, hext, hs⟩
  · rintro ⟨hd, hx, names, e, hne, hf, ha, ext, hext, hs⟩
    exact ⟨ext, hext, hd, hx, names, e, hne, hf, ha, hs⟩

theorem place_source {names : List String} {e : Entry}
    (h : t.at? (t.place dir ++ names) = some e) :
    t.place ⟨dir.root, dir.parts ++ names⟩ = t.place dir ++ names :=
  t.place_append dir fun _ hx => (ht.isName h (mem_append_right _ hx)).ne_dots

theorem eq_of_place_eq (ht' : t'.WellFormed) (hcwd : t'.cwd = t.cwd) {g : Path} {out' : List String}
    (hf : f ∈ sourceFiles t dir out) (hg : g ∈ sourceFiles t' dir out')
    (h : t.place f = t'.place g) : f = g := by
  obtain ⟨-, -, names, e, -, rfl, ha, -⟩ := (mem_sourceFiles ht).1 hf
  obtain ⟨-, -, names', e', -, rfl, ha', -⟩ := (mem_sourceFiles ht').1 hg
  have hdir : t'.place dir = t.place dir := by simp only [place, hcwd]
  rw [place_source ht ha, place_source ht' ha', hdir] at h
  rw [append_cancel_left h]

theorem mem_sourceFiles_of_file (ht' : t'.WellFormed) (hf : f ∈ sourceFiles t' dir out)
    {bytes : List UInt8} (hfile : t.find? f = some (.file bytes)) : f ∈ sourceFiles t dir out := by
  obtain ⟨-, hx, names, e, hne, rfl, ha', hs⟩ := (mem_sourceFiles ht').1 hf
  have hdots : ∀ x ∈ names, x ≠ ".." :=
    fun x hx => (ht'.isName ha' (mem_append_right _ hx)).ne_dots
  obtain ⟨hgap, ha⟩ := find?_eq_some.1 hfile
  rw [t.gap?_append dir hdots] at hgap
  rw [t.place_append dir hdots] at ha
  exact (mem_sourceFiles ht).2 ⟨isFolder_iff.2 ⟨hgap, ht.folder_above ha hne⟩, hx, names,
    _, hne, rfl, ha, hs⟩

theorem isName_source (hf : f ∈ sourceFiles t dir out) {x : String} (hx : x ∈ t.place f) :
    IsName x := by
  obtain ⟨-, -, names, e, -, rfl, ha, -⟩ := (mem_sourceFiles ht).1 hf
  rw [place_source ht ha] at hx
  exact ht.isName ha hx

theorem proper_source (hdir : dir.Proper) (hf : f ∈ sourceFiles t dir out) : f.Proper := by
  obtain ⟨-, -, names, e, -, rfl, ha, -⟩ := (mem_sourceFiles ht).1 hf
  intro part hpart
  rcases mem_append.1 hpart with hpart | hpart
  · exact hdir part hpart
  · exact .inr (ht.isName ha (mem_append_right _ hpart))

theorem isSourceName_source (hf : f ∈ sourceFiles t dir out) :
    isSourceName ((t.place f).getLast?.getD "") = true := by
  obtain ⟨-, -, names, e, hne, rfl, ha, hs⟩ := (mem_sourceFiles ht).1 hf
  rw [place_source ht ha, last_append _ hne]
  exact hs

end Files

/-! ## What a project depends on -/

/-- Two trees with the same source files, apart from folders with such names. -/
def SameSources (t t' : FileTree) (dir : Path) (out : List String) : Prop :=
  ∀ f bytes, f ∈ sourceFiles t dir out ∧ t.find? f = some (.file bytes) ↔
    f ∈ sourceFiles t' dir out ∧ t'.find? f = some (.file bytes)

section Collect

variable {m : Type → Type} [Monad m] {α β γ : Type}

/-- The results of an action on each element, without those that are missing. -/
def collect (g : α → m (Option β)) (xs : List α) : m (List β) :=
  filterMap id <$> xs.mapM g

variable [LawfulMonad m] {g : α → m (Option β)} {xs : List α}

theorem collect_nil : collect g [] = pure [] := by simp [collect]

theorem collect_cons (g : α → m (Option β)) (x : α) (xs : List α) :
    collect g (x :: xs) = g x >>= fun y => (y.toList ++ ·) <$> collect g xs := by
  simp only [collect, mapM_cons, map_bind, bind_pure_comp, Functor.map_map]
  refine bind_congr fun y => ?_
  cases y <;> rfl

theorem collect_append (g : α → m (Option β)) (xs ys : List α) :
    collect g (xs ++ ys) = collect g xs >>= fun us => (us ++ ·) <$> collect g ys := by
  simp [collect]

/-- What is collected group by group is what is collected from all of them. -/
theorem collect_flatMap (f : γ → List α) (g : α → m (Option β)) (xs : List γ) :
    flatten <$> xs.mapM (fun x => collect g (f x)) = collect g (xs.flatMap f) := by
  induction xs with
  | nil => simp [collect_nil]
  | cons x xs ih => simp [collect_append, ← ih]

theorem mapM_congr {g g' : α → m β} (h : ∀ x ∈ xs, g x = g' x) : xs.mapM g = xs.mapM g' := by
  have hmap := congrArg (mapM id) (map_congr_left h)
  rwa [mapM_map, mapM_map] at hmap

theorem collect_congr {g' : α → m (Option β)} (h : ∀ x ∈ xs, g x = g' x) :
    collect g xs = collect g' xs :=
  congrArg (filterMap id <$> ·) (mapM_congr h)

/-- What is chosen from each result is chosen from all of them. -/
theorem collect_map {g' : α → m (Option γ)} {h : β → Option γ}
    (hg : ∀ x ∈ xs, g' x = (·.bind h) <$> g x) : collect g' xs = filterMap h <$> collect g xs := by
  rw [collect_congr hg]
  induction xs with
  | nil => simp [collect_nil]
  | cons x xs ih =>
    rw [collect_cons, collect_cons, ih fun y hy => hg y (mem_cons_of_mem _ hy)]
    simp only [map_bind, bind_map_left, Functor.map_map]
    refine bind_congr fun y => ?_
    cases y with
    | none => simp
    | some y => cases hy : h y <;> simp [hy]

/-- What gives nothing can be left out. -/
theorem collect_filter (keep : α → Bool) (h : ∀ x ∈ xs, keep x = false → g x = pure none) :
    collect g xs = collect g (xs.filter keep) := by
  induction xs with
  | nil => rfl
  | cons x xs ih =>
    have ih := ih fun y hy => h y (mem_cons_of_mem _ hy)
    rw [filter_cons, collect_cons, ih]
    cases hk : keep x with
    | true => simp only [if_true, collect_cons]
    | false => simp [h x mem_cons_self hk]

end Collect

section Order

variable (exts : List (String × Language)) (t : FileTree) (dir : Path) (out : List String)

/-- The files in the order in which they are read, each with its language. -/
def order : List (Path × Language) :=
  exts.flatMap fun e => (filesWith t dir out e.1).map fun f => (f, e.2)

theorem collect_order {m : Type → Type} [Monad m] [LawfulMonad m] {β : Type}
    (g : Path × Language → m (Option β)) :
    flatten <$> exts.mapM (fun e => collect (fun f => g (f, e.2)) (filesWith t dir out e.1)) =
      collect g (order exts t dir out) := by
  rw [order, ← collect_flatMap]
  simp only [collect, mapM_map, Function.comp_def]

theorem filter_isFile_order : (order exts t dir out).filter (fun f => t.isFile f.1) =
    exts.flatMap fun e => ((filesWith t dir out e.1).filter t.isFile).map fun f => (f, e.2) := by
  simp [order, filter_flatMap, filter_map, Function.comp_def]

theorem read_eq [Machine] (excludePrivate : Bool) :
    read exts excludePrivate t dir out = ProjectDoc.mk dir.name <$>
      collect (fun f => moduleOf f.2 excludePrivate t dir f.1) (order exts t dir out) := by
  rw [← collect_order, Functor.map_map, map_eq_pure_bind]
  rfl

end Order

section Congr

variable {t t' : FileTree} {dir : Path} {out : List String}

theorem read_of_no_files [Machine] (exts : List (String × Language)) (excludePrivate : Bool)
    (h : ∀ ext, filesWith t dir out ext = []) :
    read exts excludePrivate t dir out = .ok { title := dir.name, modules := [] } := by
  have horder : order exts t dir out = [] := by simp [order, h]
  rw [read_eq, horder]
  rfl

theorem read_of_not_isFolder [Machine] (exts : List (String × Language)) (excludePrivate : Bool)
    (h : t.isFolder dir = false) :
    read exts excludePrivate t dir out = .ok { title := dir.name, modules := [] } :=
  read_of_no_files exts excludePrivate fun ext => by
    simp [filesWith, search, below, h, sort]

theorem isFile_iff {p : Path} : t.isFile p = true ↔ ∃ bytes, t.find? p = some (.file bytes) := by
  rw [isFile]
  rcases t.find? p with _ | _ | bytes <;> simp

theorem moduleOf_of_not_isFile [Machine] {f : Path} (h : t.isFile f = false) (lang : Language)
    (excludePrivate : Bool) : moduleOf lang excludePrivate t dir f = .ok none := by
  have hdoc : lang.documentFile excludePrivate t f = .ok none := by
    rw [documentFile]
    split
    · rfl
    · rw [isFile] at h
      rcases hf : t.find? f with _ | _ | bytes
      · simp [readText, readBytes, hf, bind, Except.bind]
      · simp [readText, readBytes, hf, bind, Except.bind]
      · simp [hf] at h
  rw [moduleOf, hdoc]
  rfl

theorem moduleOf_congr [Machine] {f : Path} (h : t.find? f = t'.find? f)
    (hfile : t.isFile f = true) (lang : Language) (excludePrivate : Bool) :
    moduleOf lang excludePrivate t dir f = moduleOf lang excludePrivate t' dir f := by
  obtain ⟨bytes, hf⟩ := isFile_iff.1 hfile
  have hread : t.readText f = t'.readText f := by
    simp only [readText, readBytes, ← h, hf]
  simp only [moduleOf, documentFile, hread]

/-- Files that cannot be read document nothing, so that the others decide. -/
theorem read_eq_of_files [Machine] {exts : List (String × Language)} {out' : List String}
    (hfiles : ∀ e ∈ exts, (filesWith t dir out e.1).filter t.isFile =
      (filesWith t' dir out' e.1).filter t'.isFile)
    (hfind : ∀ e ∈ exts, ∀ f ∈ filesWith t dir out e.1, t.isFile f = true → t.find? f = t'.find? f)
    (excludePrivate : Bool) :
    read exts excludePrivate t dir out = read exts excludePrivate t' dir out' := by
  have hskip (u : FileTree) (fs : List (Path × Language)) :
      collect (fun f => moduleOf f.2 excludePrivate u dir f.1) fs =
        collect (fun f => moduleOf f.2 excludePrivate u dir f.1)
          (fs.filter fun f => u.isFile f.1) :=
    collect_filter _ fun f _ hf => moduleOf_of_not_isFile hf f.2 excludePrivate
  have horder : (order exts t dir out).filter (fun f => t.isFile f.1) =
      (order exts t' dir out').filter fun f => t'.isFile f.1 := by
    rw [filter_isFile_order, filter_isFile_order]
    exact congrArg flatten (map_congr_left fun e he => by rw [hfiles e he])
  rw [read_eq, read_eq, hskip t, hskip t', ← horder]
  refine congrArg _ (collect_congr fun f hf => ?_)
  obtain ⟨hmem, hfile⟩ := mem_filter.1 hf
  obtain ⟨e, he, hmem⟩ := mem_flatMap.1 hmem
  obtain ⟨f, hfound, rfl⟩ := mem_map.1 hmem
  exact moduleOf_congr (hfind e he f hfound hfile) hfile e.2 excludePrivate

theorem SameSources.filesWith_eq (ht : t.WellFormed) (ht' : t'.WellFormed)
    (h : SameSources t t' dir out) {ext : String} (hext : ext ∈ allExtensions) :
    (filesWith t dir out ext).filter t.isFile = (filesWith t' dir out ext).filter t'.isFile := by
  have hordered : ∀ u : FileTree, ((filesWith u dir out ext).filter u.isFile).Pairwise
      fun p q => q.before p = false := fun u =>
    ((sort_ordered _).filter _).filter _
  have hnodup : ∀ u : FileTree, u.WellFormed → ((filesWith u dir out ext).filter u.isFile).Nodup :=
    fun u hu => ((nodup_search hu dir _).filter _).filter _
  have hmem : ∀ {u u' : FileTree}, u.WellFormed → u'.WellFormed → SameSources u u' dir out →
      ∀ f ∈ (filesWith u dir out ext).filter u.isFile,
        f ∈ (filesWith u' dir out ext).filter u'.isFile := by
    intro u u' hu hu' huu f hf
    rw [mem_filter] at hf
    obtain ⟨bytes, hbytes⟩ := isFile_iff.1 hf.2
    have hsource : f ∈ sourceFiles u dir out :=
      mem_sort.2 (mem_flatMap.2 ⟨ext, hext, hf.1⟩)
    obtain ⟨hsource', hbytes'⟩ := (huu f bytes).1 ⟨hsource, hbytes⟩
    obtain ⟨-, -, names, -, -, rfl, -, hs⟩ := (mem_filesWith hu).1 hf.1
    obtain ⟨hd, hx, names', e, hne, he, ha, -⟩ := (mem_sourceFiles hu').1 hsource'
    obtain rfl : names = names' := append_cancel_left (mk.inj he).2
    exact mem_filter.2
      ⟨(mem_filesWith hu').2 ⟨hd, hx, names, e, hne, rfl, ha, hs⟩, isFile_iff.2 ⟨bytes, hbytes'⟩⟩
  refine eq_of_ordered dir.root (hordered t) (hordered t') (hnodup t ht) (hnodup t' ht')
    ?_ fun f => ⟨hmem ht ht' h f, hmem ht' ht (fun f b => (h f b).symm) f⟩
  intro f hf
  obtain ⟨-, -, names, -, -, rfl, -⟩ := (mem_filesWith ht).1 (mem_filter.1 hf).1
  rfl

/-- **A project depends on the source files that can be read**, and on nothing else. -/
theorem read_congr [Machine] {exts : List (String × Language)} (hexts : exts ⊆ table)
    (ht : t.WellFormed) (ht' : t'.WellFormed) (h : SameSources t t' dir out)
    (excludePrivate : Bool) :
    read exts excludePrivate t dir out = read exts excludePrivate t' dir out := by
  have hext (e : String × Language) (he : e ∈ exts) : e.1 ∈ allExtensions :=
    mem_map_of_mem (hexts he)
  refine read_eq_of_files (fun e he => h.filesWith_eq ht ht' (hext e he))
    (fun e he f hf hfile => ?_) excludePrivate
  obtain ⟨bytes, hbytes⟩ := isFile_iff.1 hfile
  have hsource : f ∈ sourceFiles t dir out := mem_sort.2 (mem_flatMap.2 ⟨e.1, hext e he, hf⟩)
  exact hbytes.trans ((h f bytes).1 ⟨hsource, hbytes⟩).2.symm

theorem ofAll_congr [Machine] (ht : t.WellFormed) (ht' : t'.WellFormed)
    (h : SameSources t t' dir out) (excludePrivate : Bool) :
    ofAll excludePrivate t dir out = ofAll excludePrivate t' dir out :=
  read_congr (List.Subset.refl _) ht ht' h excludePrivate

/-- The same files that can be read are found, whether some folders are left out or others. -/
def SameFound (t : FileTree) (dir : Path) (out out' : List String) : Prop :=
  ∀ f bytes, t.find? f = some (.file bytes) →
    (f ∈ sourceFiles t dir out ↔ f ∈ sourceFiles t dir out')

theorem SameFound.filesWith_eq {out' : List String} (h : SameFound t dir out out') {ext : String}
    (hext : ext ∈ allExtensions) :
    (filesWith t dir out ext).filter t.isFile = (filesWith t dir out' ext).filter t.isFile := by
  have hsource : ∀ {o : List String} {f : Path}, f ∈ filesWith t dir o ext →
      f ∈ sourceFiles t dir o := fun hf => mem_sort.2 (mem_flatMap.2 ⟨ext, hext, hf⟩)
  have hshown : ∀ {o : List String} {f : Path}, f ∈ sourceFiles t dir o →
      isExcluded o f = false := fun hf => by
    obtain ⟨e, -, hf⟩ := mem_flatMap.1 (mem_sort.1 hf)
    simpa using (mem_filter.1 hf).2
  simp only [filesWith, filter_filter]
  refine filter_congr fun f hf => ?_
  cases hfile : t.isFile f with
  | false => rfl
  | true =>
    obtain ⟨bytes, hbytes⟩ := isFile_iff.1 hfile
    have hiff : isExcluded out f = false ↔ isExcluded out' f = false :=
      ⟨fun hx => hshown ((h f bytes hbytes).1
          (hsource (mem_filter.2 ⟨hf, by rw [hx]; rfl⟩))),
        fun hx => hshown ((h f bytes hbytes).2
          (hsource (mem_filter.2 ⟨hf, by rw [hx]; rfl⟩)))⟩
    rw [Bool.eq_iff_iff]
    simpa using hiff

/-- **A project depends on what is left out** only by the files that are found. -/
theorem SameFound.ofAll_eq [Machine] {out' : List String} (h : SameFound t dir out out')
    (excludePrivate : Bool) : ofAll excludePrivate t dir out = ofAll excludePrivate t dir out' :=
  read_eq_of_files (fun _ he => h.filesWith_eq (mem_map_of_mem he)) (fun _ _ _ _ _ => rfl)
    excludePrivate

end Congr

/-! ## What writing other files changes -/

section Grown

variable {P Q : List String → Prop} {t t' : FileTree} {dir f : Path} {out : List String}

section

variable (ht : t.WellFormed) (ht' : t'.WellFormed) (h : Grown P Q t t')

include ht ht' h

theorem mem_sourceFiles_of_grown (hf : f ∈ sourceFiles t dir out) :
    f ∈ sourceFiles t' dir out := by
  obtain ⟨hd, hx, names, e, hne, rfl, ha, hs⟩ := (mem_sourceFiles ht).1 hf
  obtain ⟨e', ha'⟩ : ∃ e', t'.at? (t.place dir ++ names) = some e' := by
    rcases h.entry (t.place dir ++ names) with he | ⟨-, hn, -⟩ | ⟨-, -, bytes, he⟩
    · exact ⟨e, he.trans ha⟩
    · rw [ha] at hn
      cases hn
    · exact ⟨.file bytes, he⟩
  rw [← h.place_eq dir] at ha'
  exact (mem_sourceFiles ht').2 ⟨h.isFolder hd, hx, names, e', hne, rfl, ha', hs⟩

variable (hP : ∀ loc, P loc → isSourceName (loc.getLast?.getD "") = false)

include hP

theorem sourceFiles_kept (hf : f ∈ sourceFiles t dir out) :
    f ∈ sourceFiles t' dir out ∧ t'.find? f = t.find? f := by
  refine ⟨mem_sourceFiles_of_grown ht ht' h hf, ?_⟩
  obtain ⟨hd, -, names, e, hne, rfl, ha, hs⟩ := (mem_sourceFiles ht).1 hf
  have hnot : ¬ P (t.place dir ++ names) := fun hp => by
    have hlast := hP _ hp
    rw [last_append _ hne, hs] at hlast
    cases hlast
  have ha' : t'.at? (t'.place dir ++ names) = some e := by
    rw [h.place_eq dir]
    exact h.kept hnot ha
  rw [find?_below ht' (h.isFolder hd) ha', find?_below ht hd ha]

/-- A source file that was not there before is a folder. -/
theorem find?_new_source (hgap : t'.isFolder dir = true → t.gap? dir = none)
    (hf : f ∈ sourceFiles t' dir out) (hnew : f ∉ sourceFiles t dir out) :
    t'.find? f = some .folder := by
  obtain ⟨hd', hx, names, e, hne, rfl, ha', hs⟩ := (mem_sourceFiles ht').1 hf
  have hplace : t'.place dir = t.place dir := h.place_eq dir
  rw [find?_below ht' hd' ha']
  rcases h.entry (t.place dir ++ names) with he | ⟨-, -, he⟩ | ⟨hp, -⟩
  · rw [hplace, he] at ha'
    have hd := isFolder_iff.2 ⟨hgap hd', ht.folder_above ha' hne⟩
    exact absurd ((mem_sourceFiles ht).2 ⟨hd, hx, names, e, hne, rfl, ha', hs⟩) hnew
  · rw [hplace, he] at ha'
    exact ha'.symm
  · have hlast := hP _ hp
    rw [last_append _ hne, hs] at hlast
    cases hlast

/-- Writing other files changes no source that can be read, unless it makes a folder that the path
of the sources leads back from. -/
theorem sameSources_of_grown (hgap : t'.isFolder dir = true → t.gap? dir = none) :
    SameSources t t' dir out := by
  intro f bytes
  constructor
  · rintro ⟨hf, hbytes⟩
    obtain ⟨hf', he⟩ := sourceFiles_kept ht ht' h hP hf
    exact ⟨hf', he.trans hbytes⟩
  · rintro ⟨hf', hbytes⟩
    by_cases hf : f ∈ sourceFiles t dir out
    · exact ⟨hf, (sourceFiles_kept ht ht' h hP hf).2.symm.trans hbytes⟩
    · rw [find?_new_source ht ht' h hP hgap hf' hf] at hbytes
      cases hbytes

end

/-- Where the sources of a tree come to be what they were, and in the end only other files are
written, they were so before. -/
theorem SameSources.before {P' Q' : List String → Prop} {u : FileTree}
    (h : SameSources t t' dir out) (ht : t.WellFormed) (hu : u.WellFormed) (ht' : t'.WellFormed)
    (hg : Grown P Q t u) (hg' : Grown P' Q' u t')
    (hP' : ∀ loc, P' loc → isSourceName (loc.getLast?.getD "") = false) :
    SameSources u t' dir out := by
  intro f bytes
  constructor
  · rintro ⟨hf, hbytes⟩
    obtain ⟨hf', he⟩ := sourceFiles_kept hu ht' hg' hP' hf
    exact ⟨hf', he.trans hbytes⟩
  · rintro ⟨hf', hbytes⟩
    have hf := mem_sourceFiles_of_grown ht hu hg ((h f bytes).2 ⟨hf', hbytes⟩).1
    exact ⟨hf, (sourceFiles_kept hu ht' hg' hP' hf).2.symm.trans hbytes⟩

end Grown

end Docsmith.Project
