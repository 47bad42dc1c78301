/-
The project of all languages and the projects of each. The languages share no extension, so that the
files of the one are those of the others put together (`order_languages`), in another order at most;
what a file documents does not depend on the files around it (`read_eq_found`).
-/
import Docsmith.Proofs.Walk

namespace Docsmith

open Language List

namespace Language

def all : List Language := [cpp, csharp, go, java, kotlin, python, ruby, rust, typescript]

theorem mem_all (lang : Language) : lang ∈ all := by cases lang <;> decide

def entries (lang : Language) : List (String × Language) :=
  lang.extensions.map fun ext => (ext, lang)

theorem mem_entries {lang : Language} {e : String × Language} :
    e ∈ lang.entries ↔ e.1 ∈ lang.extensions ∧ e.2 = lang := by
  rw [entries, mem_map]
  constructor
  · rintro ⟨ext, hext, rfl⟩
    exact ⟨hext, rfl⟩
  · rintro ⟨hext, rfl⟩
    exact ⟨e.1, hext, rfl⟩

theorem perm_table : (all.flatMap entries).Perm table := by decide

theorem mem_table {e : String × Language} : e ∈ table ↔ e.1 ∈ e.2.extensions := by
  rw [← perm_table.mem_iff, mem_flatMap]
  constructor
  · rintro ⟨lang, -, he⟩
    obtain ⟨hext, rfl⟩ := mem_entries.1 he
    exact hext
  · exact fun hext => ⟨e.2, mem_all e.2, mem_entries.2 ⟨hext, rfl⟩⟩

theorem eq_of_mem_table : ∀ e ∈ table, ∀ e' ∈ table, e.1 = e'.1 → e = e' := by decide

theorem filter_entries (lang : Language) :
    (all.flatMap entries).filter (fun e => e.2 = lang) = lang.entries := by
  cases lang <;> rfl

theorem perm_entries (lang : Language) : (table.filter fun e => e.2 = lang).Perm lang.entries := by
  rw [← filter_entries]
  exact perm_table.symm.filter _

theorem entries_of_single (lang : Language) (h : lang.extensions.length = 1) :
    (table.filter fun e => e.2 = lang) = lang.entries := by
  cases lang with
  | cpp | kotlin | typescript => cases h
  | _ => rfl

/-- Whether a module is that of a file of the language, by the end of its path. -/
def owns (lang : Language) (m : ModuleDoc) : Bool :=
  lang.extensions.any fun ext => ext.toList.isSuffixOf m.path.toList

end Language

namespace Project

/-! ## What a file documents -/

section Found

variable {exts exts' : List (String × Language)} {ep : Bool} {tree : FileTree} {dir : Path}
  {out : List String} {f : Path × Language} {m : ModuleDoc}

/-- What a file documents as a part of a project, if it documents anything. -/
def found [Machine] (ep : Bool) (tree : FileTree) (dir : Path) (f : Path × Language) :
    Option ModuleDoc :=
  (moduleOf f.2 ep tree dir f.1).toOption.join

/-- What the files with some extensions document, file by file. -/
def gathered [Machine] (ep : Bool) (tree : FileTree) (dir : Path) (out : List String)
    (exts : List (String × Language)) : ProjectDoc :=
  ⟨dir.name, (order exts tree dir out).filterMap (found ep tree dir)⟩

theorem filterMap_of_mapM {α β : Type} {g : α → Except Fault (Option β)} {xs : List α}
    {ys : List (Option β)} (h : xs.mapM g = .ok ys) :
    ys.filterMap id = xs.filterMap fun x => (g x).toOption.join := by
  induction xs generalizing ys with
  | nil =>
    obtain rfl := Except.pure_ok_iff.1 h
    rfl
  | cons x xs ih =>
    simp only [mapM_cons, Except.bind_ok_iff, Except.pure_ok_iff] at h
    obtain ⟨y, hy, rest, hrest, rfl⟩ := h
    rw [filterMap_cons, filterMap_cons, ih hrest, hy]
    rfl

theorem read_eq_found [Machine]
    (h : ∀ f ∈ order exts tree dir out, ¬ f.2.Blocked ep tree f.1) :
    read exts ep tree dir out = .ok (gathered ep tree dir out exts) := by
  have hok := (isOk_read_order exts ep tree dir out).2 h
  rw [read_eq, collect] at hok ⊢
  cases hms : (order exts tree dir out).mapM fun f => moduleOf f.2 ep tree dir f.1 with
  | error e =>
    rw [hms] at hok
    cases hok
  | ok ms =>
    have hfound : ms.filterMap id = (order exts tree dir out).filterMap (found ep tree dir) :=
      filterMap_of_mapM hms
    rw [gathered, ← hfound]
    rfl

theorem path_found [Machine] (h : found ep tree dir f = some m) : m.path = f.1.text := by
  rw [found, Option.join_eq_some_iff] at h
  cases hm : moduleOf f.2 ep tree dir f.1 with
  | error e => rw [hm] at h; cases h
  | ok d =>
    rw [hm] at h
    obtain rfl := Option.some.inj h
    exact path_moduleOf hm

/-! ## Files by their language -/

theorem order_perm (h : exts.Perm exts') :
    (order exts tree dir out).Perm (order exts' tree dir out) := h.flatMap_right _

theorem filter_order (lang : Language) : (order exts tree dir out).filter (fun f => f.2 = lang) =
    order (exts.filter fun e => e.2 = lang) tree dir out := by
  have hgroup (e : String × Language) :
      ((filesWith tree dir out e.1).map fun f => (f, e.2)).filter (fun f => f.2 = lang) =
        if e.2 = lang then (filesWith tree dir out e.1).map fun f => (f, e.2) else [] := by
    split
    next h => exact filter_eq_self.2 (by simp [h])
    next h => exact filter_eq_nil_iff.2 (by simp [h])
  rw [order, order, filter_flatMap]
  induction exts with
  | nil => rfl
  | cons e exts ih =>
    rw [flatMap_cons, filter_cons, ih, hgroup]
    by_cases h : e.2 = lang
    · simp [h]
    · simp [h]

/-- The files of all languages are those of each, one language after another. -/
theorem order_languages (langs : List Language) :
    order (langs.flatMap entries) tree dir out =
      langs.flatMap fun lang => order lang.entries tree dir out := by
  simp only [order, flatMap_assoc]

theorem suffix_of_mem_filesWith {ext : String} {f : Path} (hext : ext ∈ allExtensions)
    (h : f ∈ filesWith tree dir out ext) : ext.toList.isSuffixOf f.text.toList = true := by
  obtain ⟨e, he, rfl⟩ := mem_map.1 (Path.mem_sort.1 (mem_filter.1 h).1)
  have hends := isSuffixOf_iff_suffix.1 (mem_filter.1 he).2
  have hne : e.1 ≠ [] := by
    intro hnil
    rw [hnil] at hends
    rw [String.toList_eq_nil_iff.1 (suffix_nil.1 hends)] at hext
    exact absurd hext (by decide)
  refine isSuffixOf_iff_suffix.2 (List.IsSuffix.trans ?_ Path.suffix_text)
  rwa [Path.name, last_append _ hne]

theorem owns_found [Machine] (hf : f ∈ order table tree dir out)
    (h : found ep tree dir f = some m) (lang : Language) : lang.owns m = decide (f.2 = lang) := by
  obtain ⟨e, he, hmem⟩ := mem_flatMap.1 hf
  obtain ⟨g, hg, rfl⟩ := mem_map.1 hmem
  have hends := suffix_of_mem_filesWith (mem_map_of_mem he) hg
  rw [owns, path_found h, Bool.eq_iff_iff, any_eq_true, decide_eq_true_eq]
  constructor
  · rintro ⟨ext, hext, hs⟩
    have htable : (ext, lang) ∈ table := mem_table.2 hext
    obtain rfl : ext = e.1 := eq_of_isSuffixOf (mem_map_of_mem htable)
      (mem_map_of_mem he) hs hends
    exact (congrArg Prod.snd (eq_of_mem_table _ htable e he rfl)).symm
  · rintro rfl
    exact ⟨e.1, mem_table.1 he, hends⟩

theorem filter_filterMap {α β : Type} {g : α → Option β} {keep : β → Bool} {keeps : α → Bool}
    {xs : List α} (h : ∀ x ∈ xs, ∀ y, g x = some y → keep y = keeps x) :
    (xs.filterMap g).filter keep = (xs.filter keeps).filterMap g := by
  induction xs with
  | nil => rfl
  | cons x xs ih =>
    obtain ⟨hx, hxs⟩ := forall_mem_cons.1 h
    rw [filterMap_cons, filter_cons]
    cases hg : g x with
    | none =>
      rw [ih hxs]
      split
      · rw [filterMap_cons, hg]
      · rfl
    | some y =>
      rw [filter_cons, hx y hg, ih hxs]
      split
      · rw [filterMap_cons, hg]
      · rfl

theorem filter_owns [Machine] (lang : Language) :
    ((order table tree dir out).filterMap (found ep tree dir)).filter lang.owns =
      (order (table.filter fun e => e.2 = lang) tree dir out).filterMap
        (found ep tree dir) := by
  rw [← filter_order]
  exact filter_filterMap fun f hf m hm => owns_found hf hm lang

end Found

/-! ## The whole and its parts -/

/-- A project that is put together from one for each language: the modules of each language are
those of its project, in another order at most, and in the same order if it has one extension. -/
structure IsUnion (p : ProjectDoc) (q : Language → ProjectDoc) : Prop where
  title : ∀ lang, (q lang).title = p.title
  perm : ∀ lang, (p.modules.filter lang.owns).Perm (q lang).modules
  same : ∀ lang, lang.extensions.length = 1 → p.modules.filter lang.owns = (q lang).modules
  all : (all.flatMap fun lang => (q lang).modules).Perm p.modules

section Union

variable [Machine] (ep : Bool) (tree : FileTree) (dir : Path) (out : List String)

theorem isUnion_gathered : IsUnion (gathered ep tree dir out table)
    fun lang => gathered ep tree dir out lang.entries where
  title lang := rfl
  perm lang := by
    rw [gathered, gathered, filter_owns]
    exact (order_perm lang.perm_entries).filterMap _
  same lang h := by rw [gathered, gathered, filter_owns, lang.entries_of_single h]
  all := by
    have hall : (order (all.flatMap entries) tree dir out).Perm
        (order table tree dir out) := order_perm perm_table
    have hfound := hall.filterMap (found ep tree dir)
    rwa [order_languages, filterMap_flatMap] at hfound

theorem isOk_ofLanguage (lang : Language) : (ofLanguage lang ep tree dir out).isOk = true ↔
    ∀ f ∈ order table tree dir out, f.2 = lang → ¬ f.2.Blocked ep tree f.1 := by
  have hfiles (f : Path × Language) : f ∈ order lang.entries tree dir out ↔
      f ∈ order table tree dir out ∧ f.2 = lang := by
    rw [← (order_perm lang.perm_entries).mem_iff, ← filter_order, mem_filter, decide_eq_true_eq]
  rw [ofLanguage]
  refine (isOk_read_order lang.entries ep tree dir out).trans ?_
  simp only [hfiles, and_imp]

/-- **The project of all languages is the union of those of each, exactly if no file is blocked.** A
file that is blocked keeps the whole from being documented, and of the languages only its own. -/
theorem union_unless_blocked :
    ((∃ p q, ofAll ep tree dir out = .ok p ∧
        (∀ lang, ofLanguage lang ep tree dir out = .ok (q lang)) ∧ IsUnion p q) ↔
      ∀ f ∈ order table tree dir out, ¬ f.2.Blocked ep tree f.1) ∧
    ((ofAll ep tree dir out).isOk = true ↔
      ∀ f ∈ order table tree dir out, ¬ f.2.Blocked ep tree f.1) ∧
    ∀ lang, (ofLanguage lang ep tree dir out).isOk = true ↔
      ∀ f ∈ order table tree dir out, f.2 = lang → ¬ f.2.Blocked ep tree f.1 := by
  refine ⟨⟨?_, fun h => ?_⟩, isOk_read_order .., isOk_ofLanguage ep tree dir out⟩
  · rintro ⟨p, q, hp, -, -⟩
    refine (isOk_read_order ..).1 ?_
    rw [← ofAll, hp]
    rfl
  · refine ⟨gathered ep tree dir out table,
      fun lang => gathered ep tree dir out lang.entries, read_eq_found h, fun lang => ?_,
      isUnion_gathered ep tree dir out⟩
    refine read_eq_found ((isOk_read_order ..).1 ?_)
    exact (isOk_ofLanguage ep tree dir out lang).2 fun f hf _ => h f hf

end Union

/-- One blocked file, and the language of another file is documented alone but not with the rest. -/
theorem python_alone_mixedParams :
    (ofLanguage .python false mixedParams (.ofString "/a") (excluded [])).isOk = true ∧
    (ofAll false mixedParams (.ofString "/a") (excluded [])).isOk = false ∧
    ¬ (∃ p q, ofAll false mixedParams (.ofString "/a") (excluded []) = .ok p ∧
      (∀ lang, ofLanguage lang false mixedParams (.ofString "/a") (excluded []) = .ok (q lang)) ∧
      IsUnion p q) ∧
    ∃ p q, ofAll false mixedParams (.ofString "/d") (excluded []) = .ok p ∧
      (∀ lang, ofLanguage lang false mixedParams (.ofString "/d") (excluded []) = .ok (q lang)) ∧
      IsUnion p q := by
  obtain ⟨-, -, -, -, hall, hpython, hok⟩ := runs_mixedParams
  obtain ⟨hfree, hfiles, -⟩ := union_unless_blocked false mixedParams (.ofString "/d") (excluded [])
  refine ⟨hpython, hall, ?_, hfree.2 (hfiles.1 hok)⟩
  rintro ⟨p, q, hp, -, -⟩
  rw [hp] at hall
  cases hall

end Project

end Docsmith
