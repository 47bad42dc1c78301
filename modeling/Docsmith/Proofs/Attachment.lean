/-
Which comments become the documentation of what a file declares.

Where comments are written in lines, a declaration has the comment lines directly above the line on
which its match starts. Where they are written in blocks, a type, or a function of TypeScript, has
the one block that ends before its match with blanks alone between. A method has no block at all:
its match starts with the blanks in front of it (`Indented`), and a block belongs to a character that is
no blank.
-/
import Docsmith.Proofs.Comments
import Docsmith.Proofs.Findings

namespace Docsmith

open Pattern

namespace Language

/-- How comments are written in the languages that write them in lines alone. -/
def lineStyle? : Language → Option LineStyle
  | csharp => some CSharp.lineStyle
  | go => some Go.lineStyle
  | ruby => some Ruby.lineStyle
  | rust => some Rust.lineStyle
  | _ => none

/-- How the text of a comment is read in the languages that write them in blocks alone. -/
def blockText? : Language → Option (List Char → String)
  | java => some Java.cleanComment
  | kotlin => some Kotlin.cleanComment
  | typescript => some TypeScript.cleanComment
  | _ => none

end Language

variable {lang : Language} {kind : Kind} {source : List Char} {name doc : String} {origin : Nat}
  {line : Int} {s : Finding}

/-! ## Lines -/

theorem Language.Sited.textAt_lines (h : lang.Sited kind source name origin line s)
    {style : LineStyle} (hmarks : style.marks ⊆ ['/', '#']) :
    (style.comments s.text).textAt s.found.start.pos =
      style.docAbove s.text s.found.start.pos := by
  obtain ⟨p, hp, hm⟩ := h.found
  refine LineStyle.textAt_comments h.startsLine (pos_le_of_mem_findAll hm) ?_
  obtain ⟨b, t, u, htext, ht, hstart, -⟩ := reads_of_mem_findAll hm
  have hdrop : s.text.drop s.found.start.pos = t ++ u := by
    rw [hstart, htext]
    exact List.drop_left
  rw [hdrop]
  exact LineStyle.not_isRemark_of_reads ht (opens_patterns hp).1 (opens_patterns hp).2
    (List.Subset.trans hmarks (List.subset_append_left ['/', '#'] _))

theorem Language.Documented.docAbove (h : lang.Documented kind source name doc origin line s)
    {style : LineStyle} (hstyle : lang.lineStyle? = some style) :
    doc = style.docAbove s.text s.found.start.pos := by
  have hcomments : lang.comments = style.comments := by
    cases lang <;> cases hstyle <;> rfl
  have hmarks : style.marks ⊆ ['/', '#'] := by
    cases lang <;> cases hstyle <;> decide
  rw [h.doc_eq, hcomments, h.toSited.textAt_lines hmarks]

/-- Where comments are written in lines, the documentation of a function or type is the text of the
comment lines directly above the line on which its match starts, and empty if there are none. So is
that of a method in the text that it was found in, which in Go is the file. -/
theorem document_lineDocs (lang : Language) (style : LineStyle) (ep : Bool) (path : Path)
    (source : List Char) (d : ModuleDoc) (hstyle : lang.lineStyle? = some style)
    (h : lang.document ep path source = .ok (some d)) :
    (∀ f ∈ d.functions, ∃ m, lang.Sited .function source f.name 0 f.line ⟨0, source, m⟩ ∧
      f.doc = style.docAbove source m.start.pos) ∧
    ∀ t ∈ d.types, (∃ m, lang.Sited .type source t.name 0 t.line ⟨0, source, m⟩ ∧
      t.doc = style.docAbove source m.start.pos) ∧
      ∀ f ∈ t.methods, ∃ origin ∈ lang.origins source t.name, ∃ s,
        lang.Sited .method source f.name origin f.line s ∧
        (lang = .go → s.start = 0 ∧ s.text = source) ∧
        f.doc = style.docAbove s.text s.found.start.pos := by
  have hpython : lang ≠ .python := by
    rintro rfl
    cases hstyle
  obtain ⟨hfunctions, htypes⟩ := Language.locates_of_document hpython h
  refine ⟨fun f hf => ?_, fun t ht => ⟨?_, fun f hf => ?_⟩⟩
  · obtain ⟨m, hm⟩ := hfunctions f hf
    exact ⟨m, hm.toSited, hm.docAbove hstyle⟩
  · obtain ⟨m, hm⟩ := (htypes t ht).1
    exact ⟨m, hm.toSited, hm.docAbove hstyle⟩
  · obtain ⟨origin, horigin, s, hs⟩ := (htypes t ht).2 f hf
    exact ⟨origin, horigin, s, hs.toSited, hs.whole, hs.docAbove hstyle⟩

/-- A function below two runs of comment lines, of which a blank line divides the first from it, and
a structure below none. -/
def twoRuns : List Char :=
  "/// Old.\n\n  /// Adds.\n///\n/// Twice.\nfn add() \x7b\x7d\n\nstruct A \x7b\x7d\n".toList

theorem document_lineDocs_twoRuns :
    (Rust.document false (.ofString "a.rs") twoRuns).functions.map Callable.doc =
      ["Adds.\n\nTwice."] ∧
    (Rust.document false (.ofString "a.rs") twoRuns).types.map TypeDecl.doc = [""] ∧
    (∀ f ∈ (Rust.document false (.ofString "a.rs") twoRuns).functions, ∃ m,
      Language.rust.Sited .function twoRuns f.name 0 f.line ⟨0, twoRuns, m⟩ ∧
        f.doc = Rust.lineStyle.docAbove twoRuns m.start.pos) ∧
    Rust.lineStyle.above twoRuns 39 = ["  /// Adds.".toList, "///".toList, "/// Twice.".toList] :=
  ⟨by decide +kernel, by decide +kernel, (document_lineDocs _ _ _ _ _ _ rfl rfl).1,
    by decide +kernel⟩

/-! ## Blocks -/

theorem comments_ofBlocks {clean : List Char → String} (hclean : lang.blockText? = some clean)
    (text : List Char) : lang.comments text = Comments.ofBlocks starBlock clean text := by
  cases lang with
  | java | kotlin | typescript =>
    obtain rfl := Option.some.inj hclean
    rfl
  | _ => cases hclean

theorem Language.Documented.attached (h : lang.Documented kind source name doc origin line s)
    {clean : List Char → String} (hclean : lang.blockText? = some clean)
    (hkind : kind = .type ∨ kind = .function ∧ lang ≠ .kotlin) :
    Block.Attached clean s.text s.found.start.pos doc := by
  have hflush : lang.isFlush kind = true := by
    cases lang with
    | java | typescript => rcases hkind with rfl | ⟨rfl, -⟩ <;> rfl
    | kotlin =>
      rcases hkind with rfl | ⟨-, hkotlin⟩
      · rfl
      · exact absurd rfl hkotlin
    | _ => cases hclean
  have hblanks : blankChars ⊆ lang.unopened kind := by
    rw [unopened, if_pos hflush]
    exact List.subset_append_right ['/', '#'] _
  obtain ⟨p, hp, hm⟩ := h.found
  rw [h.doc_eq, comments_ofBlocks hclean]
  refine Block.attached_textAt clean (pos_le_of_mem_findAll hm) ?_
  obtain ⟨b, t, u, htext, ht, hstart, -⟩ := reads_of_mem_findAll hm
  obtain ⟨c, t, rfl, hc⟩ := ht.exists_cons (opens_patterns hp).1 (opens_patterns hp).2 hblanks
  have hdrop : s.text.drop s.found.start.pos = c :: t ++ u := by
    rw [hstart, htext]
    exact List.drop_left
  rw [hdrop]
  exact hc

/-- Where comments are written in blocks, at most one of them ends before the match of a type with
blanks alone between, and its text is the documentation of the type, which is empty if there is
none. So it is for functions, but in Kotlin, where their matches may start with blanks. -/
theorem document_blockDocs (lang : Language) (clean : List Char → String) (ep : Bool) (path : Path)
    (source : List Char) (d : ModuleDoc) (hclean : lang.blockText? = some clean)
    (h : lang.document ep path source = .ok (some d)) :
    (lang ≠ .kotlin → ∀ f ∈ d.functions, ∃ m,
      lang.Sited .function source f.name 0 f.line ⟨0, source, m⟩ ∧
        Block.Attached clean source m.start.pos f.doc) ∧
    ∀ t ∈ d.types, ∃ m, lang.Sited .type source t.name 0 t.line ⟨0, source, m⟩ ∧
      Block.Attached clean source m.start.pos t.doc := by
  have hpython : lang ≠ .python := by
    rintro rfl
    cases hclean
  obtain ⟨hfunctions, htypes⟩ := Language.locates_of_document hpython h
  refine ⟨fun hkotlin f hf => ?_, fun t ht => ?_⟩
  · obtain ⟨m, hm⟩ := hfunctions f hf
    exact ⟨m, hm.toSited, hm.attached hclean (.inr ⟨rfl, hkotlin⟩)⟩
  · obtain ⟨m, hm⟩ := (htypes t ht).1
    exact ⟨m, hm.toSited, hm.attached hclean (.inl rfl)⟩

/-- Two blocks before a function, of which the first holds the start of another. -/
def twoBlocks : List Char :=
  "/** Old. /** */ /** Adds. */\n\nfunction add(): void \x7b\x7d\n".toList

theorem document_blockDocs_twoBlocks :
    (TypeScript.document false (.ofString "a.ts") twoBlocks).functions.map Callable.doc =
      ["Adds."] ∧
    (∀ f ∈ (TypeScript.document false (.ofString "a.ts") twoBlocks).functions, ∃ m,
      Language.typescript.Sited .function twoBlocks f.name 0 f.line ⟨0, twoBlocks, m⟩ ∧
        Block.Attached TypeScript.cleanComment twoBlocks m.start.pos f.doc) ∧
    (Block.all twoBlocks).map (fun c => String.ofList c.inside) = [" Old. /** ", " Adds. "] :=
  ⟨by decide +kernel, (document_blockDocs _ _ _ _ _ _ rfl rfl).1 (by decide), by decide +kernel⟩

/-! ## Methods -/

/-- Whatever a pattern reads starts with a blank. -/
def Indented (p : Pattern) : Prop := ∀ b t, p.Reads b t → t.head?.any Text.isBlank = true

theorem indented_lineStart {accepts : Char → Bool} {greedy : Bool}
    (h : ∀ c, accepts c = true → Text.isBlank c = true) :
    Indented (lineStart ++ chars accepts 1 greedy) := by
  intro b t ht
  cases ht
  next t u ht hu =>
    cases ht
    cases hu
    next hu hlong =>
      cases u with
      | nil => cases hlong
      | cons c u => exact h c (List.all_eq_true.1 hu c List.mem_cons_self)

theorem Indented.seq {p q : Pattern} (h : Indented p) : Indented (p ++ q) := by
  intro b t ht
  cases ht
  next t u ht hu =>
    have hhead := h b t ht
    cases t with
    | nil => cases hhead
    | cons c t => exact hhead

theorem indented_methods {p : Pattern} (hlang : lang ∈ [.cpp, .java, .kotlin, .typescript])
    (hp : p ∈ lang.patterns .method) : Indented p := by
  have hmargin (c : Char) (hc : among " \t" c = true) : Text.isBlank c = true := by
    have hc : c = ' ' ∨ c = '\t' := by simpa [among] using hc
    rcases hc with rfl | rfl <;> rfl
  simp only [List.mem_cons, List.not_mem_nil, or_false] at hlang
  rcases hlang with rfl | rfl | rfl | rfl <;> obtain rfl := List.mem_singleton.1 hp
  · exact (indented_lineStart hmargin).seq.seq
  · exact (indented_lineStart fun _ h => h).seq.seq.seq.seq.seq.seq.seq.seq.seq.seq
  · exact (indented_lineStart hmargin).seq.seq
  · exact (indented_lineStart fun _ h => h).seq.seq.seq.seq.seq.seq.seq.seq.seq

theorem Language.Documented.methodDoc (hlang : lang ∈ [.cpp, .java, .kotlin, .typescript])
    (h : lang.Documented .method source name doc origin line s) :
    doc = if lang = .cpp then Cpp.lineStyle.docAbove s.text s.found.start.pos else "" := by
  obtain ⟨p, hp, hm⟩ := h.found
  have hblank : (s.text.drop s.found.start.pos).head?.any Text.isBlank = true := by
    obtain ⟨b, t, u, htext, ht, hstart, -⟩ := reads_of_mem_findAll hm
    have hdrop : s.text.drop s.found.start.pos = t ++ u := by
      rw [hstart, htext]
      exact List.drop_left
    have hhead := indented_methods hlang hp b t ht
    rw [hdrop]
    cases t with
    | nil => cases hhead
    | cons c t => exact hhead
  have hnone (p : Pattern) (clean : List Char → String) :
      (Comments.ofBlocks p clean s.text).textAt s.found.start.pos = "" :=
    Comments.textAt_eq (fun _ he hpos => absurd hpos (Block.ne_of_mem_ofBlocks he hblank))
      (.inr rfl)
  rw [h.doc_eq]
  simp only [List.mem_cons, List.not_mem_nil, or_false] at hlang
  rcases hlang with rfl | rfl | rfl | rfl
  · have hmarks : Cpp.lineStyle.marks ⊆ ['/', '#'] := by decide
    rw [if_pos rfl, ← h.toSited.textAt_lines hmarks]
    exact Comments.textAt_append_left fun e he => Block.ne_of_mem_ofBlocks he hblank
  all_goals exact hnone _ _

/-- A method has no block for its documentation, wherever one stands: in Java, Kotlin and TypeScript
its documentation is empty, in C++ the text of the comment lines directly above the line on which
its match starts. -/
theorem document_methodDocs (lang : Language) (ep : Bool) (path : Path) (source : List Char)
    (d : ModuleDoc) (hlang : lang ∈ [.cpp, .java, .kotlin, .typescript])
    (h : lang.document ep path source = .ok (some d)) :
    ∀ t ∈ d.types, ∀ f ∈ t.methods, ∃ origin ∈ lang.origins source t.name, ∃ s,
      lang.Sited .method source f.name origin f.line s ∧
        f.doc = if lang = .cpp then Cpp.lineStyle.docAbove s.text s.found.start.pos else "" := by
  have hpython : lang ≠ .python := by
    rintro rfl
    simp at hlang
  intro t ht f hf
  obtain ⟨origin, horigin, s, hs⟩ := ((Language.locates_of_document hpython h).types t ht).2 f hf
  exact ⟨origin, horigin, s, hs.toSited, hs.methodDoc hlang⟩

/-- A class with one method and a block directly before it. -/
def blockInBody : List Char :=
  "class A \x7b\n  /** Adds. */\n  add(): void \x7b\x7d\n\x7d\n".toList

theorem document_methodDocs_blockInBody :
    (TypeScript.document false (.ofString "a.ts") blockInBody).types.flatMap
      (fun t => t.methods.map fun f => (f.name, f.doc)) = [("add", "")] ∧
    (∀ t ∈ (TypeScript.document false (.ofString "a.ts") blockInBody).types, ∀ f ∈ t.methods,
      ∃ origin ∈ Language.typescript.origins blockInBody t.name, ∃ s,
        Language.typescript.Sited .method blockInBody f.name origin f.line s ∧ f.doc = "") ∧
    ((Block.all blockInBody).filter (Block.isBefore blockInBody 27)).map
      (fun c => TypeScript.cleanComment c.inside) = ["Adds."] ∧
    "add".toList <+: blockInBody.drop 27 :=
  ⟨by decide +kernel, document_methodDocs .typescript _ _ _ _ (by decide) rfl, by decide +kernel,
    by decide⟩

end Docsmith
