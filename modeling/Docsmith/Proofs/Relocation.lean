/-
A project in two places.

The files that are found below a folder, and what they document, do not depend on the way to the
folder (`Moved.sourceFiles_eq`, `Moved.read_eq`), as long as what is left out does not: the parts of
the way count there, too.
-/
import Docsmith.Proofs.Walk

namespace Docsmith

open Path FileTree List

/-! ## Paths below a folder -/

namespace Path

/-- What lies below a folder by some names. -/
def under (d : Path) (names : List String) : Path := ⟨d.root, d.parts ++ names⟩

/-- The names by which a path lies below a folder. -/
def namesBelow (d p : Path) : List String := p.parts.drop d.parts.length

@[simp] theorem namesBelow_under (d : Path) (names : List String) :
    d.namesBelow (d.under names) = names := drop_left

theorem under_injective (d : Path) : Function.Injective d.under := fun _ _ h =>
  append_cancel_left (mk.inj h).2

theorem allParts_under (d : Path) (names : List String) :
    (d.under names).allParts = d.allParts ++ names := by
  rw [allParts, allParts, under]
  by_cases h : d.root.isEmpty = true
  · rw [if_pos h, if_pos h]
  · rw [if_neg h, if_neg h, cons_append]

theorem name_under (d : Path) {names : List String} (h : names ≠ []) :
    (d.under names).name = names.getLast?.getD "" := Project.last_append d.parts h

theorem relativeTo?_under (d : Path) (names : List String) :
    (d.under names).relativeTo? d = some ⟨"", names⟩ := by
  simp [relativeTo?, under]

theorem before_append (above names names' : List String) :
    (⟨"", above ++ names⟩ : Path).before ⟨"", above ++ names'⟩ =
      (⟨"", names⟩ : Path).before ⟨"", names'⟩ := by
  induction above with
  | nil => rfl
  | cons x above ih =>
    rw [← ih]
    simp [before, allParts]

theorem before_under (d : Path) (names names' : List String) :
    (d.under names).before (d.under names') = (⟨"", names⟩ : Path).before ⟨"", names'⟩ := by
  have hparts : ∀ p q : Path, p.before q = (⟨"", p.allParts⟩ : Path).before ⟨"", q.allParts⟩ :=
    fun _ _ => rfl
  rw [hparts, allParts_under, allParts_under, before_append]

/-- Paths in order below two folders are the same below both if the same names are among them. -/
theorem eq_map_under {d d' : Path} {ps ps' : List Path}
    (hordered : ps.Pairwise fun p q => q.before p = false)
    (hordered' : ps'.Pairwise fun p q => q.before p = false) (hnodup : ps.Nodup)
    (hnodup' : ps'.Nodup) (hbelow : ∀ p ∈ ps, ∃ names, p = d.under names)
    (hbelow' : ∀ p ∈ ps', ∃ names, p = d'.under names)
    (hmem : ∀ names, d.under names ∈ ps ↔ d'.under names ∈ ps') :
    ps = (ps.map d.namesBelow).map d.under ∧ ps' = (ps.map d.namesBelow).map d'.under := by
  have hself : ps = (ps.map d.namesBelow).map d.under := by
    rw [map_map, eq_comm]
    refine (map_congr_left fun p hp => ?_).trans (map_id ps)
    obtain ⟨names, rfl⟩ := hbelow p hp
    simp
  refine ⟨hself, ?_⟩
  generalize ps.map d.namesBelow = ns at hself
  subst hself
  have hmoved : (ns.map d'.under).Pairwise fun p q => q.before p = false := by
    rw [pairwise_map] at hordered ⊢
    refine hordered.imp fun h => ?_
    rw [before_under] at h ⊢
    exact h
  have hdistinct : (ns.map d'.under).Nodup := by
    rw [Nodup, pairwise_map] at hnodup ⊢
    exact hnodup.imp fun hne he => hne (congrArg d.under (d'.under_injective he))
  refine eq_of_ordered d'.root hordered' hmoved hnodup' hdistinct (fun p hp => ?_) fun p => ?_
  · obtain ⟨names, rfl⟩ := hbelow' p hp
    rfl
  · constructor
    · intro hp
      obtain ⟨names, rfl⟩ := hbelow' p hp
      obtain ⟨names', hnames, he⟩ := mem_map.1 ((hmem names).2 hp)
      exact mem_map.2 ⟨names', hnames, by rw [d.under_injective he]⟩
    · intro hp
      obtain ⟨names, hnames, rfl⟩ := mem_map.1 hp
      exact (hmem names).1 (mem_map_of_mem hnames)

end Path

/-! ## Documentation of one text under two paths -/

namespace Language

/-- A module at a path. -/
def placed (p : Path) (m : ModuleDoc) : ModuleDoc := { m with path := p.text }

theorem bind_eq_map {α β γ : Type} {x : Except Fault α} {g : α → Except Fault β}
    {g' : α → Except Fault γ} {f : β → γ} (h : ∀ a, g' a = (g a).map f) :
    (x >>= g') = (x >>= g).map f := by
  cases x with
  | error e => rfl
  | ok a => exact h a

/-- **What a text documents** depends on the name of its file; the path is only noted. -/
theorem document_placed [Machine] {p q : Path} (h : q.name = p.name) (lang : Language)
    (ep : Bool) (source : List Char) :
    lang.document ep q source = (lang.document ep p source).map (Option.map (placed q)) := by
  have hstem : q.stem = p.stem := by rw [stem, stem, h]
  cases lang with
  | cpp => simp only [document, Cpp.document, hstem]; rfl
  | kotlin => simp only [document, Kotlin.document, hstem]; rfl
  | ruby => simp only [document, Ruby.document, hstem]; rfl
  | rust => simp only [document, Rust.document, hstem]; rfl
  | typescript => simp only [document, TypeScript.document, hstem]; rfl
  | go =>
    simp only [document, Go.document, h, hstem]
    split <;> rfl
  | python =>
    simp only [document, Python.document, hstem]
    exact bind_eq_map fun body => by cases body <;> rfl
  | java =>
    have hdoc : Java.document ep q source = (Java.document ep p source).map (placed q) := by
      simp only [Java.document, hstem]
      exact bind_eq_map fun classes => rfl
    rw [document, document, hdoc]
    cases Java.document ep p source <;> rfl
  | csharp =>
    have hdoc : CSharp.document ep q source = (CSharp.document ep p source).map (placed q) := by
      simp only [CSharp.document, hstem]
      exact bind_eq_map fun classes => bind_eq_map fun structs => rfl
    rw [document, document, hdoc]
    cases CSharp.document ep p source <;> rfl

theorem documentFile_placed [Machine] {t t' : FileTree} {p q : Path} {e : Entry}
    (h : q.name = p.name) (hp : t.find? p = some e) (hq : t'.find? q = some e) (lang : Language)
    (ep : Bool) :
    lang.documentFile ep t' q = (lang.documentFile ep t p).map (Option.map (placed q)) := by
  have hsuffix : q.suffix = p.suffix := by rw [suffix, suffix, h]
  rw [documentFile, documentFile, hsuffix]
  split
  · rfl
  · cases e with
    | folder =>
      simp only [readText, readBytes, hp, hq]
      rfl
    | file bytes =>
      have hread : t'.readText q = t.readText p := by
        simp only [readText, readBytes, hp, hq]
      rw [hread]
      cases t.readText p with
      | error e => rfl
      | ok source => exact document_placed h lang ep source

end Language

namespace Project

open Language (placed)

/-! ## One tree in two places -/

theorem isExcluded_under (out : List String) (d : Path) (names : List String) :
    isExcluded out (d.under names) = (isExcluded out d || names.any out.contains) := by
  rw [isExcluded, allParts_under, any_append]
  rfl

/-- The same things lie below a folder of one tree and a folder of another. -/
structure Moved (t t' : FileTree) (d d' : Path) : Prop where
  wellFormed : t.WellFormed
  wellFormed' : t'.WellFormed
  folder : t.isFolder d = true
  folder' : t'.isFolder d' = true
  same : ∀ names, names ≠ [] → t'.at? (t'.place d' ++ names) = t.at? (t.place d ++ names)

/-- Something with a name that is looked for lies below a folder. -/
structure Lies (t : FileTree) (d : Path) (accepts : String → Bool) (names : List String) :
    Prop where
  ne_nil : names ≠ []
  entry : ∃ e, t.at? (t.place d ++ names) = some e
  name : accepts (names.getLast?.getD "") = true

def hasExtension (ext name : String) : Bool := ext.toList.isSuffixOf name.toList

section Moved

variable {t t' : FileTree} {d d' : Path} {out : List String} {names : List String}
  {accepts : String → Bool}

theorem found_iff_lies (hd : t.isFolder d = true) :
    (t.isFolder d = true ∧ isExcluded out (d.under names) = false ∧
      ∃ names' e, names' ≠ [] ∧ d.under names = d.under names' ∧
        t.at? (t.place d ++ names') = some e ∧ accepts (names'.getLast?.getD "") = true) ↔
      Lies t d accepts names ∧ isExcluded out (d.under names) = false := by
  constructor
  · rintro ⟨-, hx, names', e, hne, he, ha, hs⟩
    obtain rfl := d.under_injective he
    exact ⟨⟨hne, ⟨e, ha⟩, hs⟩, hx⟩
  · rintro ⟨⟨hne, ⟨e, ha⟩, hs⟩, hx⟩
    exact ⟨hd, hx, names, e, hne, rfl, ha, hs⟩

theorem under_mem_sourceFiles (ht : t.WellFormed) (hd : t.isFolder d = true) :
    d.under names ∈ sourceFiles t d out ↔
      Lies t d isSourceName names ∧ isExcluded out (d.under names) = false :=
  (mem_sourceFiles ht).trans (found_iff_lies hd)

theorem under_mem_filesWith (ht : t.WellFormed) (hd : t.isFolder d = true) {ext : String} :
    d.under names ∈ filesWith t d out ext ↔
      Lies t d (hasExtension ext) names ∧ isExcluded out (d.under names) = false :=
  (mem_filesWith ht).trans (@found_iff_lies _ _ _ _ (hasExtension ext) hd)

theorem Lies.isSource {ext : String} (hext : ext ∈ Language.allExtensions)
    (h : Lies t d (hasExtension ext) names) : Lies t d isSourceName names :=
  ⟨h.ne_nil, h.entry, any_eq_true.2 ⟨ext, hext, h.name⟩⟩

namespace Moved

variable (h : Moved t t' d d')

include h

theorem lies_iff : Lies t' d' accepts names ↔ Lies t d accepts names := by
  constructor
  · rintro ⟨hne, hentry, hname⟩
    rw [h.same names hne] at hentry
    exact ⟨hne, hentry, hname⟩
  · rintro ⟨hne, hentry, hname⟩
    rw [← h.same names hne] at hentry
    exact ⟨hne, hentry, hname⟩

theorem moduleOf_eq [Machine] (hne : names ≠ [])
    (hentry : ∃ e, t.at? (t.place d ++ names) = some e) (lang : Language) (ep : Bool) :
    moduleOf lang ep t' d' (d'.under names) =
      (moduleOf lang ep t d (d.under names)).map (Option.map (placed (d'.under names))) := by
  obtain ⟨e, he⟩ := hentry
  have hp : t.find? (d.under names) = some e := find?_below h.wellFormed h.folder he
  have hq : t'.find? (d'.under names) = some e :=
    find?_below h.wellFormed' h.folder' ((h.same names hne).trans he)
  have hname : (d'.under names).name = (d.under names).name := by
    rw [name_under d' hne, name_under d hne]
  have hmodule : moduleName d' (d'.under names) = moduleName d (d.under names) := by
    funext plain
    rw [moduleName, moduleName, relativeTo?_under, relativeTo?_under]
  rw [moduleOf, moduleOf, Language.documentFile_placed hname hp hq, hmodule]
  rcases lang.documentFile ep t (d.under names) with e | _ | m
  · rfl
  · rfl
  · refine congrArg Except.ok ?_
    -- whether there is anything to show does not depend on the path
    show (if m.isEmpty then none else some (placed (d'.under names)
      { m with name := moduleName d (d.under names) m.name })) =
        Option.map _ (if m.isEmpty then _ else _)
    split <;> rfl

variable (hout : ∀ names, Lies t d isSourceName names →
  isExcluded out (d'.under names) = isExcluded out (d.under names))

include hout

theorem sourceFiles_eq : ∃ ns : List (List String),
    sourceFiles t d out = ns.map d.under ∧ sourceFiles t' d' out = ns.map d'.under := by
  have hbelow : ∀ {u : FileTree} {c : Path}, u.WellFormed → ∀ p ∈ sourceFiles u c out,
      ∃ names, p = c.under names := fun hu p hp => by
    obtain ⟨-, -, names, -, -, he, -⟩ := (mem_sourceFiles hu).1 hp
    exact ⟨names, he⟩
  refine ⟨_, eq_map_under (sort_ordered _) (sort_ordered _)
    (nodup_sourceFiles h.wellFormed) (nodup_sourceFiles h.wellFormed') (hbelow h.wellFormed)
    (hbelow h.wellFormed') fun names => ?_⟩
  rw [under_mem_sourceFiles h.wellFormed h.folder, under_mem_sourceFiles h.wellFormed' h.folder',
    h.lies_iff]
  exact and_congr_right fun hs => by rw [hout names hs]

theorem filesWith_eq {ext : String} (hext : ext ∈ Language.allExtensions) :
    filesWith t d out ext = ((filesWith t d out ext).map d.namesBelow).map d.under ∧
      filesWith t' d' out ext = ((filesWith t d out ext).map d.namesBelow).map d'.under := by
  have hbelow : ∀ {u : FileTree} {c : Path}, u.WellFormed → ∀ p ∈ filesWith u c out ext,
      ∃ names, p = c.under names := fun hu p hp => by
    obtain ⟨-, -, names, -, -, he, -⟩ := (mem_filesWith hu).1 hp
    exact ⟨names, he⟩
  have hordered : ∀ (u : FileTree) (c : Path), (filesWith u c out ext).Pairwise
      fun p q => q.before p = false := fun u c => (sort_ordered _).filter _
  have hnodup : ∀ {u : FileTree} {c : Path}, u.WellFormed → (filesWith u c out ext).Nodup :=
    fun hu => (nodup_search hu _ _).filter _
  refine eq_map_under (hordered t d) (hordered t' d') (hnodup h.wellFormed)
    (hnodup h.wellFormed') (hbelow h.wellFormed) (hbelow h.wellFormed') fun names => ?_
  rw [under_mem_filesWith h.wellFormed h.folder, under_mem_filesWith h.wellFormed' h.folder',
    h.lies_iff]
  exact and_congr_right fun hs => by rw [hout names (hs.isSource hext)]

end Moved

end Moved

/-! ## Documentation without a place -/

/-- A project from modules that lie below its folder by some names. -/
def projectAt (d : Path) (ms : List (List String × ModuleDoc)) : ProjectDoc where
  title := d.name
  modules := ms.map fun m => placed (d.under m.1) m.2

theorem moduleOf_placed [Machine] (lang : Language) (ep : Bool) (t : FileTree) (d f : Path) :
    moduleOf lang ep t d f = (moduleOf lang ep t d f).map (Option.map (placed f)) := by
  rcases hm : moduleOf lang ep t d f with e | _ | m
  · rfl
  · rfl
  · have hpath := path_moduleOf hm
    refine congrArg (Except.ok ∘ some) ?_
    rw [placed, ← hpath]

/-- What is read below a folder, without the place of the folder. -/
def readNameless [Machine] (exts : List (String × Language)) (ep : Bool) (t : FileTree) (d : Path)
    (out : List String) : Except Fault (List (List String × ModuleDoc)) :=
  collect (fun f => (moduleOf f.2 ep t d f.1).map (Option.map fun m => (d.namesBelow f.1, m)))
    (order exts t d out)

section Read

variable {t t' : FileTree} {d d' : Path} {out : List String} {exts : List (String × Language)}
  {ep : Bool}

/-- A project in some place, when the files there lie below its folder by the names that they have
in another and document the same. -/
theorem read_eq_map [Machine]
    (hfiles : ∀ e ∈ exts, filesWith t' d' out e.1 =
      (filesWith t d out e.1).map fun f => d'.under (d.namesBelow f))
    (hmodules : ∀ e ∈ exts, ∀ f ∈ filesWith t d out e.1,
      moduleOf e.2 ep t' d' (d'.under (d.namesBelow f)) =
        (moduleOf e.2 ep t d f).map (Option.map (placed (d'.under (d.namesBelow f))))) :
    read exts ep t' d' out = (readNameless exts ep t d out).map (projectAt d') := by
  have horder : order exts t' d' out =
      (order exts t d out).map fun f => (d'.under (d.namesBelow f.1), f.2) := by
    rw [order, order, map_flatMap]
    exact congrArg flatten (map_congr_left fun e he => by simp [hfiles e he])
  have hcollect : collect (fun f => moduleOf f.2 ep t' d' (d'.under (d.namesBelow f.1)))
      (order exts t d out) =
        filterMap (some ∘ fun m => placed (d'.under m.1) m.2) <$>
          readNameless exts ep t d out := by
    refine collect_map fun f hf => ?_
    obtain ⟨e, he, hmem⟩ := mem_flatMap.1 hf
    obtain ⟨p, hp, rfl⟩ := mem_map.1 hmem
    rw [hmodules e he p hp]
    rcases moduleOf e.2 ep t d p with e | _ | m <;> rfl
  rw [read_eq, horder, collect, mapM_map]
  refine (congrArg _ hcollect).trans ?_
  rw [filterMap_eq_map]
  cases readNameless exts ep t d out <;> rfl

/-- **One documentation in two places**: where the files that are found are the same, what they
document is the same, and it is only placed differently. -/
theorem Moved.read_eq [Machine] (h : Moved t t' d d') (hexts : exts ⊆ Language.table)
    (hout : ∀ names, Lies t d isSourceName names →
      isExcluded out (d'.under names) = isExcluded out (d.under names)) (ep : Bool) :
    read exts ep t d out = (readNameless exts ep t d out).map (projectAt d) ∧
      read exts ep t' d' out = (readNameless exts ep t d out).map (projectAt d') := by
  have hfiles e (he : e ∈ exts) := h.filesWith_eq hout (mem_map_of_mem (hexts he))
  simp only [map_map] at hfiles
  have hbelow e (he : e ∈ exts) f (hf : f ∈ filesWith t d out e.1) :
      ∃ names, names ≠ [] ∧ f = d.under names ∧ (∃ x, t.at? (t.place d ++ names) = some x) ∧
        d.namesBelow f = names := by
    obtain ⟨-, -, names, x, hne, rfl, ha, -⟩ := (mem_filesWith h.wellFormed).1 hf
    exact ⟨names, hne, rfl, ⟨x, ha⟩, d.namesBelow_under names⟩
  refine ⟨read_eq_map (fun e he => (hfiles e he).1) fun e he f hf => ?_,
    read_eq_map (fun e he => (hfiles e he).2) fun e he f hf => ?_⟩
  · obtain ⟨names, -, rfl, -, hnames⟩ := hbelow e he f hf
    rw [hnames]
    exact moduleOf_placed e.2 ep t d _
  · obtain ⟨names, hne, rfl, hentry, hnames⟩ := hbelow e he f hf
    rw [hnames]
    exact h.moduleOf_eq hne hentry e.2 ep

/-- Below a folder that is left out, or lies in one, nothing is found. -/
theorem filesWith_of_excluded (ht : t.WellFormed) (hd : isExcluded out d = true) (ext : String) :
    filesWith t d out ext = [] := by
  rw [eq_nil_iff_forall_not_mem]
  intro f hf
  obtain ⟨-, hx, names, -, -, rfl, -⟩ := (mem_filesWith ht).1 hf
  have hunder := isExcluded_under out d names
  rw [hd, Bool.true_or] at hunder
  rw [under, hx] at hunder
  cases hunder

theorem sourceFiles_of_excluded (ht : t.WellFormed) (hd : isExcluded out d = true) :
    sourceFiles t d out = [] := by
  rw [eq_nil_iff_forall_not_mem]
  intro f hf
  obtain ⟨ext, -, hf⟩ := mem_flatMap.1 (mem_sort.1 hf)
  rw [filesWith_of_excluded ht hd] at hf
  cases hf

theorem any_contains_of_no_sources (ht : t.WellFormed) (hfolder : t.isFolder d = true)
    (hd : isExcluded out d = false) (hnil : sourceFiles t d out = []) {names : List String}
    (hlies : Lies t d isSourceName names) : names.any out.contains = true := by
  refine Classical.byContradiction fun hshown => ?_
  have hmem : d.under names ∈ sourceFiles t d out := by
    refine (under_mem_sourceFiles ht hfolder).2 ⟨hlies, ?_⟩
    rw [isExcluded_under, hd, Bool.false_or, Bool.eq_false_iff]
    exact hshown
  rw [hnil] at hmem
  cases hmem

/-- **Where documentation does not depend on the place of the project.** The parts of a path above
the folder of the project are compared with what is left out, too. So the same files are found
below two folders, and the same is documented, exactly if both or neither lie in a folder that is
left out, or there is nothing to find; in a folder that is left out nothing is documented. -/
theorem same_in_both_places_iff [Machine] (h : Moved t t' d d') (out : List String) (ep : Bool) :
    (((∃ ns : List (List String),
          sourceFiles t d out = ns.map d.under ∧ sourceFiles t' d' out = ns.map d'.under) ∧
        ∃ r : Except Fault (List (List String × ModuleDoc)),
          ofAll ep t d out = r.map (projectAt d) ∧ ofAll ep t' d' out = r.map (projectAt d')) ↔
      isExcluded out d = isExcluded out d' ∨
        ∀ names, Lies t d isSourceName names → names.any out.contains = true) ∧
    (isExcluded out d = true → sourceFiles t d out = [] ∧ ofAll ep t d out = .ok ⟨d.name, []⟩) := by
  refine ⟨⟨?_, fun hor => ?_⟩, fun hd => ⟨sourceFiles_of_excluded h.wellFormed hd,
    read_of_no_files _ ep (filesWith_of_excluded h.wellFormed hd)⟩⟩
  · rintro ⟨⟨ns, hns, hns'⟩, -⟩
    refine Classical.or_iff_not_imp_left.2 fun hne names hlies => ?_
    -- nothing is found in the folder that is left out, so nothing is in the other one
    cases hd : isExcluded out d with
    | true =>
      have hd' : isExcluded out d' = false := by
        rw [hd] at hne
        exact Bool.eq_false_iff.2 (Ne.symm hne)
      rw [sourceFiles_of_excluded h.wellFormed hd, eq_comm, List.map_eq_nil_iff] at hns
      rw [hns] at hns'
      exact any_contains_of_no_sources h.wellFormed' h.folder' hd' hns' (h.lies_iff.2 hlies)
    | false =>
      have hd' : isExcluded out d' = true := by
        rw [hd] at hne
        exact Bool.ne_false_iff.1 (Ne.symm hne)
      rw [sourceFiles_of_excluded h.wellFormed' hd', eq_comm, List.map_eq_nil_iff] at hns'
      rw [hns'] at hns
      exact any_contains_of_no_sources h.wellFormed h.folder hd hns hlies
  · have hout : ∀ names, Lies t d isSourceName names →
        isExcluded out (d'.under names) = isExcluded out (d.under names) := by
      intro names hlies
      rw [isExcluded_under, isExcluded_under]
      rcases hor with hsame | hall
      · rw [hsame]
      · rw [hall names hlies, Bool.or_true, Bool.or_true]
    exact ⟨h.sourceFiles_eq hout, _, h.read_eq (List.Subset.refl _) hout ep⟩

/-- A module in a plain folder, and in one that is left out. -/
def twoPlaces : FileTree :=
  ⟨⟨"/", []⟩, [(["srv"], .folder), (["srv", "a.py"], .file [34, 34]), (["venv"], .folder),
    (["venv", "a.py"], .file [34, 34])]⟩

theorem moved_twoPlaces : Moved twoPlaces twoPlaces ⟨"/", ["venv"]⟩ ⟨"/", ["srv"]⟩ where
  wellFormed := by decide
  wellFormed' := by decide
  folder := by decide
  folder' := by decide
  same names hne := by
    show twoPlaces.at? ("srv" :: names) = twoPlaces.at? ("venv" :: names)
    by_cases h : names = ["a.py"]
    · rw [h]
      rfl
    · have hother : (["a.py"] == names) = false := beq_eq_false_iff_ne.2 (Ne.symm h)
      have hnil : ([] == names) = false := beq_eq_false_iff_ne.2 (Ne.symm hne)
      simp [at?, twoPlaces, hother, hnil]

theorem twoPlaces_differ :
    ¬ ((∃ ns : List (List String),
        sourceFiles twoPlaces ⟨"/", ["venv"]⟩ defaultExcluded =
          ns.map (Path.under ⟨"/", ["venv"]⟩) ∧
        sourceFiles twoPlaces ⟨"/", ["srv"]⟩ defaultExcluded = ns.map (Path.under ⟨"/", ["srv"]⟩)) ∧
      ∃ r : Except Fault (List (List String × ModuleDoc)),
        ofAll false twoPlaces ⟨"/", ["venv"]⟩ defaultExcluded =
          r.map (projectAt ⟨"/", ["venv"]⟩) ∧
        ofAll false twoPlaces ⟨"/", ["srv"]⟩ defaultExcluded = r.map (projectAt ⟨"/", ["srv"]⟩)) ∧
    ofAll false twoPlaces ⟨"/", ["venv"]⟩ defaultExcluded = .ok ⟨"venv", []⟩ := by
  obtain ⟨hiff, hout⟩ := same_in_both_places_iff moved_twoPlaces defaultExcluded false
  refine ⟨fun hsame => ?_, (hout (by decide)).2⟩
  rcases hiff.1 hsame with hd | hall
  · exact absurd hd (by decide)
  · exact absurd (hall ["a.py"] ⟨by decide, ⟨_, rfl⟩, by decide⟩) (by decide)

end Read

end Project

end Docsmith
