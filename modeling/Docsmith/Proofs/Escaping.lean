/-
Texts in HTML pages.

Escaping makes a text longer, unless no character of it means something in markup
(`unmarked_of_length_escape`). A page with its texts escaped is therefore the page with its texts as
they are only if escaping leaves every text in it alone (`render_eq_iff`). No template has a name
for which texts are escaped (`escapes_eq_false`), so that a site is written as if they were exactly
if none of its texts needs it (`pages_eq_escaped_iff`).
-/
import Docsmith.Proofs.Project
import Docsmith.Proofs.Site

namespace Docsmith

open List

namespace Page

/-! ## Escaping -/

section Lengths

variable {α β : Type} {f g : α → List β}

theorem length_flatMap_le (h : ∀ x, (f x).length ≤ (g x).length) (xs : List α) :
    (xs.flatMap f).length ≤ (xs.flatMap g).length := by
  induction xs with
  | nil => exact Nat.le_refl _
  | cons x xs ih =>
    have hx := h x
    rw [flatMap_cons, flatMap_cons, length_append, length_append]
    omega

theorem length_eq_of_flatMap (h : ∀ x, (f x).length ≤ (g x).length) {xs : List α}
    (he : (xs.flatMap g).length = (xs.flatMap f).length) :
    ∀ x ∈ xs, (g x).length = (f x).length := by
  induction xs with
  | nil => simp
  | cons x xs ih =>
    have hx := h x
    have hxs := length_flatMap_le h xs
    rw [flatMap_cons, flatMap_cons, length_append, length_append] at he
    intro y hy
    rcases mem_cons.1 hy with rfl | hy
    · omega
    · exact ih (by omega) y hy

end Lengths

/-- A text without characters that mean something in markup. -/
def Unmarked (s : String) : Prop := ∀ c ∈ s.toList, entity? c = none

variable {s : String}

theorem all_iff_unmarked : (s.toList.all fun c => (entity? c).isNone) = true ↔ Unmarked s := by
  simp [Unmarked]

instance (s : String) : Decidable (Unmarked s) := decidable_of_decidable_of_iff all_iff_unmarked

@[simp] theorem unmarked_append {t : String} : Unmarked (s ++ t) ↔ Unmarked s ∧ Unmarked t := by
  simp only [Unmarked, String.toList_append, mem_append, or_imp, forall_and]

theorem Unmarked.of_subset {t : String} (h : Unmarked t) (hs : s.toList ⊆ t.toList) :
    Unmarked s := fun c hc => h c (hs hc)

/-- No text of a list has such characters. -/
def AllUnmarked (ss : List String) : Prop := ∀ s ∈ ss, Unmarked s

section AllUnmarked

variable {s : String} {ss ts : List String} {α : Type}

@[simp] theorem allUnmarked_nil : AllUnmarked [] := by simp [AllUnmarked]

@[simp] theorem allUnmarked_cons : AllUnmarked (s :: ss) ↔ Unmarked s ∧ AllUnmarked ss :=
  forall_mem_cons

@[simp] theorem allUnmarked_append : AllUnmarked (ss ++ ts) ↔ AllUnmarked ss ∧ AllUnmarked ts :=
  forall_mem_append

@[simp] theorem allUnmarked_flatMap {xs : List α} {f : α → List String} :
    AllUnmarked (xs.flatMap f) ↔ ∀ x ∈ xs, AllUnmarked (f x) := by
  simp only [AllUnmarked, mem_flatMap]
  exact ⟨fun h x hx s hs => h s ⟨x, hx, hs⟩, fun h s ⟨x, hx, hs⟩ => h x hx s hs⟩

end AllUnmarked

def escaped (c : Char) : List Char := ((entity? c).map String.toList).getD [c]

theorem toList_escape (s : String) : (escape s).toList = s.toList.flatMap escaped :=
  String.toList_ofList

theorem one_lt_length_entity {c : Char} (h : entity? c = some s) : 1 < s.toList.length := by
  unfold entity? at h
  split at h <;> cases h <;> decide

theorem one_le_length_escaped (c : Char) : [c].length ≤ (escaped c).length := by
  cases h : entity? c with
  | none => simp [escaped, h]
  | some s =>
    have hs := one_lt_length_entity h
    simp only [escaped, h, Option.map_some, Option.getD_some, length_singleton]
    omega

theorem length_le_escape (s : String) : s.toList.length ≤ (escape s).toList.length := by
  have h := length_flatMap_le one_le_length_escaped s.toList
  rwa [flatMap_singleton', ← toList_escape] at h

/-- A text that escaping makes no longer has nothing to escape. -/
theorem unmarked_of_length_escape
    (h : (escape s).toList.length = s.toList.length) : Unmarked s := by
  have he : (s.toList.flatMap escaped).length = (s.toList.flatMap fun c => [c]).length := by
    rw [flatMap_singleton', ← toList_escape, h]
  intro c hc
  have hlen := length_eq_of_flatMap one_le_length_escaped he c hc
  cases hentity : entity? c with
  | none => rfl
  | some t =>
    have ht := one_lt_length_entity hentity
    simp only [escaped, hentity, Option.map_some, Option.getD_some, length_singleton] at hlen
    omega

theorem escape_of_unmarked (h : Unmarked s) : escape s = s := by
  have hsame : ∀ c ∈ s.toList, escaped c = [c] := fun c hc => by simp [escaped, h c hc]
  refine String.toList_inj.1 ?_
  rw [toList_escape, flatMap_def, map_congr_left hsame, ← flatMap_def,
    flatMap_singleton']

/-! ## Pages with texts -/

/-- No text of a page needs to be escaped. -/
def Harmless (m : Markup) : Prop := ∀ s, .text s ∈ m → Unmarked s

theorem toList_render (isEscaping : Bool) (m : Markup) :
    (render isEscaping m).toList = m.flatMap fun piece => (piece.render isEscaping).toList := by
  rw [render, String.toList_join, flatMap_map]

theorem render_append (isEscaping : Bool) (m n : Markup) :
    render isEscaping (m ++ n) = render isEscaping m ++ render isEscaping n := by
  rw [render, map_append, String.join_append]
  rfl

theorem length_render_le (piece : Piece) :
    (piece.render false).toList.length ≤ (piece.render true).toList.length := by
  cases piece with
  | markup s => exact Nat.le_refl _
  | text s => exact length_le_escape s

/-- **Escaping shows**, unless there is nothing to escape. -/
theorem render_eq_iff {m : Markup} : render true m = render false m ↔ Harmless m := by
  constructor
  · intro h s hs
    have hlen : (m.flatMap fun piece => (piece.render true).toList).length =
        (m.flatMap fun piece => (piece.render false).toList).length := by
      rw [← toList_render, ← toList_render, h]
    have hpiece := length_eq_of_flatMap length_render_le hlen (.text s) hs
    exact unmarked_of_length_escape hpiece
  · intro h
    rw [render, render]
    refine congrArg _ (map_congr_left fun piece hpiece => ?_)
    cases piece with
    | markup s => rfl
    | text s => exact escape_of_unmarked (h s hpiece)

section Harmless

variable {m n : Markup} {s : String} {ls : List Markup} {bs : List (List Markup)} {α : Type}

@[simp] theorem harmless_nil : Harmless [] := by simp [Harmless]

@[simp] theorem harmless_markup_cons : Harmless (.markup s :: m) ↔ Harmless m := by
  simp [Harmless]

@[simp] theorem harmless_text_cons : Harmless (.text s :: m) ↔ Unmarked s ∧ Harmless m := by
  simp [Harmless]

@[simp] theorem harmless_append : Harmless (m ++ n) ↔ Harmless m ∧ Harmless n := by
  simp only [Harmless, mem_append, or_imp, forall_and]

@[simp] theorem harmless_shown : Harmless (shown s) ↔ Unmarked s := by simp [shown]

@[simp] theorem harmless_lines_nil : Harmless (lines []) := harmless_nil

@[simp] theorem harmless_lines_cons :
    Harmless (lines (m :: ls)) ↔ Harmless m ∧ Harmless (lines ls) := by
  simp [lines]

theorem harmless_lines : Harmless (lines ls) ↔ ∀ l ∈ ls, Harmless l := by
  induction ls with
  | nil => simp
  | cons l ls ih => simp [ih]

@[simp] theorem harmless_blocks_nil : Harmless (lines (blocks [])) := harmless_nil

@[simp] theorem harmless_blocks_cons :
    Harmless (lines (blocks (ls :: bs))) ↔ Harmless (lines ls) ∧ Harmless (lines (blocks bs)) := by
  simp only [harmless_lines, blocks, flatten_cons, mem_append, or_imp, forall_and]

@[simp] theorem harmless_linesIf {b : Bool} :
    Harmless (lines (linesIf b ls)) ↔ (b = true → Harmless (lines ls)) := by
  cases b <;> simp [linesIf]

variable {xs : List α}

@[simp] theorem harmless_map {f : α → Markup} :
    Harmless (lines (xs.map f)) ↔ ∀ x ∈ xs, Harmless (f x) := by
  simp [harmless_lines]

@[simp] theorem harmless_flatMap {f : α → List Markup} :
    Harmless (lines (xs.flatMap f)) ↔ ∀ x ∈ xs, Harmless (lines (f x)) := by
  simp only [harmless_lines, mem_flatMap]
  exact ⟨fun h x hx l hl => h l ⟨x, hx, hl⟩, fun h l ⟨x, hx, hl⟩ => h x hx l hl⟩

@[simp] theorem unmarked_of_ne_empty : (¬ s = "" → Unmarked s) ↔ Unmarked s := by
  refine ⟨fun h => ?_, fun h _ => h⟩
  by_cases hs : s = ""
  · subst hs; decide
  · exact h hs

@[simp] theorem forall_of_ne_nil {P : α → Prop} : (¬ xs = [] → ∀ x ∈ xs, P x) ↔ ∀ x ∈ xs, P x :=
  ⟨fun h x hx => h (ne_nil_of_mem hx) x hx, fun h _ => h⟩

end Harmless

end Page

/-! ## What pages show -/

def Callable.texts (f : Callable) : List String := f.name :: (f.marks ++ [f.signature, f.doc])

def TypeDecl.texts (t : TypeDecl) : List String :=
  t.name :: (t.marks ++ t.signature :: t.doc :: t.methods.flatMap Callable.texts)

def ModuleDoc.texts (m : ModuleDoc) : List String :=
  m.name :: m.doc :: m.path ::
    (m.types.flatMap TypeDecl.texts ++ m.functions.flatMap Callable.texts)

def ProjectDoc.texts (p : ProjectDoc) : List String := p.title :: p.modules.flatMap ModuleDoc.texts

namespace Page

variable {m : ModuleDoc} {f : Callable} {p : ProjectDoc}

theorem unmarked_pagePath : Unmarked m.pagePath ↔ Unmarked m.name := by
  have hdot : entity? '.' = none ∧ entity? '/' = none := by decide
  simp only [Unmarked, ModuleDoc.pagePath, String.toList_map, forall_mem_map]
  refine forall₂_congr fun c _ => ?_
  split
  next h => rw [h, hdot.1, hdot.2]
  next => rfl

theorem unmarked_summary (h : Unmarked m.doc) : Unmarked m.summary := by
  refine h.of_subset ?_
  rw [ModuleDoc.summary, String.toList_ofList]
  exact (List.takeWhile_prefix _).subset

/-- The name of a function stands in its signature. -/
theorem allUnmarked_texts :
    AllUnmarked f.texts ↔ AllUnmarked f.marks ∧ Unmarked f.signature ∧ Unmarked f.doc := by
  have hname : Unmarked f.signature → Unmarked f.name := by
    simp only [Callable.signature, unmarked_append]
    exact fun h => h.1.1.1.1.2
  simpa [Callable.texts] using fun _ h _ => hname h

/-! ## Pages -/

theorem harmless_blockHead (margin kind word : String) (isDeprecated : Bool) :
    Harmless (lines (blockHead margin kind word isDeprecated)) := by
  simp [blockHead]

theorem harmless_blockBody {margin signature doc : String} {marks : List String} :
    Harmless (lines (blockBody margin marks signature doc)) ↔
      AllUnmarked marks ∧ Unmarked signature ∧ Unmarked doc := by
  simp [blockBody, AllUnmarked]

theorem harmless_htmlMethod : Harmless (lines (htmlMethod f)) ↔ AllUnmarked f.texts := by
  simp [htmlMethod, harmless_blockHead, harmless_blockBody, allUnmarked_texts]

theorem harmless_htmlType {t : TypeDecl} :
    Harmless (lines (htmlType t)) ↔ AllUnmarked t.texts := by
  simp [htmlType, harmless_blockHead, harmless_blockBody, harmless_htmlMethod, TypeDecl.texts,
    and_assoc]

theorem harmless_htmlFunction : Harmless (lines (htmlFunction f)) ↔ AllUnmarked f.texts := by
  simp [htmlFunction, harmless_blockHead, harmless_blockBody, Callable.texts]

/-- The contents of a page show names that stand on the page again. -/
theorem harmless_toc (htypes : ∀ t ∈ m.types, AllUnmarked t.texts)
    (hfunctions : ∀ f ∈ m.functions, AllUnmarked f.texts) : Harmless (lines (toc m)) := by
  have ht : ∀ t ∈ m.types, Unmarked t.name := fun t h => htypes t h _ mem_cons_self
  have hf : ∀ f ∈ m.functions, Unmarked f.name := fun f h => hfunctions f h _ mem_cons_self
  simpa [toc, tocEntry] using fun _ => ⟨ht, hf⟩

theorem harmless_htmlModule : Harmless (htmlModule m) ↔ AllUnmarked m.texts := by
  simpa [htmlModule, harmless_htmlType, harmless_htmlFunction, ModuleDoc.texts] using
    fun _ _ _ => harmless_toc

theorem harmless_moduleCard (hname : Unmarked m.name) (hdoc : Unmarked m.doc) :
    Harmless (lines (moduleCard m)) := by
  have hsummary := unmarked_summary hdoc
  by_cases h : m.doc = ""
  · simp [moduleCard, unmarked_pagePath, hname, h]
  · simp [moduleCard, unmarked_pagePath, hname, hsummary, h]

theorem harmless_htmlIndex (h : AllUnmarked p.texts) : Harmless (htmlIndex p) := by
  simp only [ProjectDoc.texts, ModuleDoc.texts, allUnmarked_cons, allUnmarked_flatMap] at h
  have hcards : ∀ m ∈ p.modules, Harmless (lines (moduleCard m)) :=
    fun m hm => harmless_moduleCard (h.2 m hm).1 (h.2 m hm).2.1
  simpa [htmlIndex, statCard, h.1] using hcards

theorem harmless_frameHead {title : String} {current : Option String} {up : String} :
    Harmless (frameHead p title current up) ↔
      Unmarked title ∧ Unmarked p.title ∧ ∀ m ∈ p.modules, Unmarked m.name := by
  simp [frameHead, navEntry, unmarked_pagePath, and_assoc]

theorem harmless_frameTail : Harmless frameTail := by simp [frameTail, script]

theorem escapes_eq_false : Template.escapes = fun _ => false := by
  funext t
  cases t <;> decide

theorem htmlPage_const (isEscaping : Bool) (p : ProjectDoc) (title : String) (template : Template)
    (body : Markup) (current : Option String) (up : String) :
    htmlPage (fun _ => isEscaping) p title template body current up =
      render isEscaping (frameHead p title current up ++ body ++ frameTail) := by
  have hraw : ∀ s, render isEscaping [.markup s] = s := fun s => by
    simp [render, Piece.render]
  simp only [htmlPage, frame, render_append, hraw]

/-- A page is as if its texts were escaped exactly if none of them needs it. -/
theorem htmlPage_eq_iff {title : String} {template : Template} {body : Markup}
    {current : Option String} {up : String} :
    htmlPage Template.escapes p title template body current up =
        htmlPage (fun _ => true) p title template body current up ↔
      (Unmarked title ∧ Unmarked p.title ∧ ∀ m ∈ p.modules, Unmarked m.name) ∧ Harmless body := by
  rw [escapes_eq_false, htmlPage_const, htmlPage_const, eq_comm, render_eq_iff, harmless_append,
    harmless_append, harmless_frameHead]
  exact and_iff_left harmless_frameTail

/-! ## Sites -/

theorem mapM_eq_iff {α β : Type} {g g' : α → Except Fault β} {xs : List α} {ys : List β}
    (h : xs.mapM g = .ok ys) : xs.mapM g' = .ok ys ↔ ∀ x ∈ xs, g x = g' x := by
  refine ⟨fun h' => ?_, fun hsame => Project.mapM_congr hsame ▸ h⟩
  induction xs generalizing ys with
  | nil => simp
  | cons x xs ih =>
    simp only [mapM_cons, Except.bind_ok_iff, Except.pure_ok_iff] at h h'
    obtain ⟨y, hy, ys, hys, rfl⟩ := h
    obtain ⟨y', hy', ys', hys', heq⟩ := h'
    obtain ⟨rfl, rfl⟩ := cons.inj heq
    exact forall_mem_cons.2 ⟨hy.trans hy'.symm, ih hys hys'⟩

section Sites

variable {escapes : Template → Bool} {p : ProjectDoc} {out : Path} {m : ModuleDoc}

/-- The page of a module in HTML, where `escapes` says which templates have their texts escaped. -/
def htmlModuleFile (escapes : Template → Bool) (p : ProjectDoc) (out : Path) (m : ModuleDoc) :
    Except Fault (Path × String) := do
  let up ← stepsUp (moduleFile .html out m) out
  pure (moduleFile .html out m, htmlModulePage escapes p m up)

/-- The pages of a project in HTML, where `escapes` says which templates have their texts
escaped. -/
def htmlPages (escapes : Template → Bool) (p : ProjectDoc) (out : Path) :
    Except Fault (List (Path × String)) := do
  let ps ← p.modules.mapM (htmlModuleFile escapes p out)
  pure ((indexFile .html out, htmlIndexPage escapes p) :: ps)

theorem pages_html : pages .html p out = htmlPages Template.escapes p out := by
  delta pages htmlPages modulePage htmlModuleFile moduleText indexText
  simp only [bind_assoc, pure_bind]

theorem htmlModuleFile_eq_iff {page : Path × String}
    (h : htmlModuleFile Template.escapes p out m = .ok page) :
    htmlModuleFile Template.escapes p out m = htmlModuleFile (fun _ => true) p out m ↔
      (Unmarked p.title ∧ ∀ m ∈ p.modules, Unmarked m.name) ∧ AllUnmarked m.texts := by
  obtain ⟨up, hup, -⟩ := Except.bind_ok_iff.1 h
  have hiff : htmlModuleFile Template.escapes p out m = htmlModuleFile (fun _ => true) p out m ↔
      htmlModulePage Template.escapes p m up = htmlModulePage (fun _ => true) p m up := by
    rw [htmlModuleFile, htmlModuleFile, hup]
    exact ⟨fun h => (Prod.mk.inj (Except.ok.inj h)).2,
      fun h => congrArg (fun text => Except.ok (moduleFile .html out m, text)) h⟩
  have hdash : Unmarked " — " := by decide
  have hname : AllUnmarked m.texts → Unmarked m.name := fun h => h _ mem_cons_self
  rw [hiff, htmlModulePage, htmlModulePage, htmlPage_eq_iff, harmless_htmlModule, unmarked_append,
    unmarked_append]
  exact ⟨fun h => ⟨h.1.2, h.2⟩, fun h => ⟨⟨⟨⟨hname h.2, hdash⟩, h.1.1⟩, h.1⟩, h.2⟩⟩

/-- **Texts in a site.** A site in HTML is written as if every text taken from the project were
escaped exactly if none of them has a character that means something in markup. -/
theorem pages_eq_escaped_iff {w w' : World} {files : List Path}
    (h : (writeSite .html p out).exec w = (.ok files, w')) :
    pages .html p out = htmlPages (fun _ => true) p out ↔ AllUnmarked p.texts := by
  obtain ⟨ps, -, hps, -⟩ := writeSite_ok.1 h
  rw [pages_html] at hps ⊢
  obtain ⟨ms, hms, rfl⟩ : ∃ ms, p.modules.mapM (htmlModuleFile Template.escapes p out) = .ok ms ∧
      (indexFile .html out, htmlIndexPage Template.escapes p) :: ms = ps := by
    simpa only [htmlPages, Except.bind_ok_iff, Except.pure_ok_iff] using hps
  have hmodules : ∀ m ∈ p.modules,
      (htmlModuleFile Template.escapes p out m = htmlModuleFile (fun _ => true) p out m ↔
        (Unmarked p.title ∧ ∀ m ∈ p.modules, Unmarked m.name) ∧ AllUnmarked m.texts) := by
    intro m hm
    obtain ⟨page, -, hpage⟩ := Except.exists_of_mapM hms hm
    exact htmlModuleFile_eq_iff hpage
  constructor
  · intro heq
    rw [hps] at heq
    obtain ⟨ms', hms', hsame⟩ := by
      simpa only [htmlPages, Except.bind_ok_iff, Except.pure_ok_iff] using heq.symm
    obtain ⟨hindex, rfl⟩ := List.cons.inj hsame
    have hindex := (htmlPage_eq_iff.1 (Prod.mk.inj hindex).2.symm).1
    have hall := (mapM_eq_iff hms).1 hms'
    simp only [ProjectDoc.texts, allUnmarked_cons, allUnmarked_flatMap]
    exact ⟨hindex.1, fun m hm => ((hmodules m hm).1 (hall m hm)).2⟩
  · intro htexts
    have hindex := harmless_htmlIndex htexts
    simp only [ProjectDoc.texts, allUnmarked_cons, allUnmarked_flatMap] at htexts
    have hnames : ∀ m ∈ p.modules, Unmarked m.name :=
      fun m hm => htexts.2 m hm _ List.mem_cons_self
    have hpage : htmlIndexPage Template.escapes p = htmlIndexPage (fun _ => true) p :=
      htmlPage_eq_iff.2 ⟨⟨htexts.1, htexts.1, hnames⟩, hindex⟩
    have hms' := (mapM_eq_iff hms).2 fun m hm =>
      (hmodules m hm).2 ⟨⟨htexts.1, hnames⟩, htexts.2 m hm⟩
    rw [htmlPages, htmlPages, hms, hms', hpage]

def scripted : ProjectDoc where
  modules := [{ path := "src/a.py", name := "a", doc := "<script>alert(1)</script>" }]

theorem script_not_escaped : ∃ files w',
    (writeSite .html scripted (.ofString "out")).exec
        { files := ⟨.ofString "/w", [(["w"], .folder)]⟩ } = (.ok files, w') ∧
      pages .html scripted (.ofString "out") ≠
        htmlPages (fun _ => true) scripted (.ofString "out") := by
  have hok : ((writeSite .html scripted (.ofString "out")).exec
      { files := ⟨.ofString "/w", [(["w"], .folder)]⟩ }).1.isOk = true := by decide +kernel
  rcases hrun : (writeSite .html scripted (.ofString "out")).exec
      { files := ⟨.ofString "/w", [(["w"], .folder)]⟩ } with ⟨_ | files, w'⟩
  · simp [hrun, Except.isOk, Except.toBool] at hok
  · refine ⟨files, w', rfl, fun heq => ?_⟩
    have hdoc : "<script>alert(1)</script>" ∈ scripted.texts := by decide
    exact absurd ((pages_eq_escaped_iff hrun).1 heq _ hdoc) (by decide)

end Sites

end Page

end Docsmith
