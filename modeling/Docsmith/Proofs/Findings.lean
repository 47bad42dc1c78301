/-
Where in a file the declarations stand that it documents, and which line each is reported on.

A declaration is found by a pattern in the file or in the body of a type (`Finding`), and the line
reported is counted from a position that depends on the language (`origins`): in Go, Python and Rust
from the start of the file, elsewhere, for a method, from the start of the body that it was found in.
The line of the declaration's first character that is no blank is the reported one, further down by
the lines before that position and by the lines that end in the blanks that the pattern itself takes
before that character (`document_reports`).
-/
import Docsmith.Proofs.Insertion
import Docsmith.Proofs.Openings
import Docsmith.Proofs.Privacy

namespace Docsmith

open Text Language Assistant List

/-- What was found in a text that starts at a position of a file. -/
structure Finding where
  start : Nat
  text : List Char
  found : Match

namespace Finding

def pos (s : Finding) : Nat := s.start + s.found.start.pos

/-- The blanks that the match starts with. -/
def gap (s : Finding) : List Char := s.found.start.rest.takeWhile isBlank

/-- The position in the file behind the blanks that the match starts with. -/
def first (s : Finding) : Nat := s.pos + s.gap.length

end Finding

namespace Language

/-- The comments of a text; Python's are found in the syntax tree. -/
def comments : Language → List Char → Comments
  | cpp => Cpp.comments
  | csharp => CSharp.comments
  | go => Go.comments
  | java => Java.comments
  | kotlin => Kotlin.comments
  | python => fun _ => []
  | ruby => Ruby.comments
  | rust => Rust.comments
  | typescript => TypeScript.comments

/-- The positions from which the lines of the methods of a type are counted: the start of the file,
or the starts of the bodies of the types of that name. -/
def origins (lang : Language) (source : List Char) (type : String) : List Nat :=
  let named (p : Pattern) : List Match := (p.findAll source).filter fun m => m.name 1 == type
  let behind (p : Pattern) : List Nat := (named p).map fun m => m.stop.pos
  match lang with
  | cpp => behind Cpp.classPattern
  | csharp => behind CSharp.classPattern ++ behind CSharp.structPattern
  | java => behind Java.classPattern
  | kotlin => behind Kotlin.classPattern
  | typescript => behind TypeScript.classPattern
  | ruby => (named Ruby.classPattern).map fun m =>
      m.stop.pos + ((m.stop.rest.takeWhile (· != '\n')).length + 1)
  | go | python | rust => [0]

/-- A declaration of `name` was found at `s`, on the line `line` counted from the position
`origin` of the file. -/
structure Sited (lang : Language) (kind : Kind) (source : List Char) (name : String)
    (origin : Nat) (line : Int) (s : Finding) : Prop where
  piece : s.text <+: source.drop s.start
  found : ∃ p ∈ lang.patterns kind, s.found ∈ p.findAll s.text
  named : ∃ n, s.found.name n = name
  behind : origin ≤ s.start
  line_eq : (lineAt source s.pos : Int) = line + (source.take origin).count '\n'

/-- A declaration that was found, with the comment that belongs to where its match starts. In Go it
is always the file that is searched. -/
structure Documented (lang : Language) (kind : Kind) (source : List Char) (name doc : String)
    (origin : Nat) (line : Int) (s : Finding) : Prop
    extends Sited lang kind source name origin line s where
  doc_eq : doc = (lang.comments s.text).textAt s.found.start.pos
  whole : lang = .go → s.start = 0 ∧ s.text = source

/-- The functions, types and methods of a file are found where they are said to be. -/
structure Locates (lang : Language) (source : List Char) (d : ModuleDoc) : Prop where
  functions : ∀ f ∈ d.functions, ∃ m,
    lang.Documented .function source f.name f.doc 0 f.line ⟨0, source, m⟩
  types : ∀ t ∈ d.types,
    (∃ m, lang.Documented .type source t.name t.doc 0 t.line ⟨0, source, m⟩) ∧
      ∀ f ∈ t.methods, ∃ origin ∈ lang.origins source t.name,
        ∃ s, lang.Documented .method source f.name f.doc origin f.line s

end Language

open Language

/-! ## Texts within a file -/

section Pieces

variable {lang : Language} {kind : Kind} {p : Pattern} {source text : List Char} {m : Match}
  {start : Nat}

theorem lineAt_piece (h : text <+: source.drop start) {pos : Nat} (hpos : pos ≤ text.length) :
    lineAt source (start + pos) = lineAt text pos + (source.take start).count '\n' := by
  have htake : text.take pos = (source.drop start).take pos := by
    rw [prefix_iff_eq_take.1 h, take_take, Nat.min_eq_left hpos]
  rw [lineAt, lineAt, take_add, count_append, htake]
  omega

theorem pos_le_of_mem_findAll (h : m ∈ p.findAll text) : m.start.pos ≤ text.length := by
  obtain ⟨b, t, u, rfl, -, hstart, -⟩ := Pattern.reads_of_mem_findAll h
  rw [hstart]
  simp [Cursor.between]

theorem documented_of_mem (htext : text <+: source.drop start) (hm : m ∈ p.findAll text) (n : Nat)
    (hwhole : lang = .go → start = 0 ∧ text = source) (hp : p ∈ lang.patterns kind) :
    lang.Documented kind source (m.name n) ((lang.comments text).textAt m.start.pos) start
      (lineAt text m.start.pos) ⟨start, text, m⟩ where
  doc_eq := rfl
  whole := hwhole
  piece := htext
  found := ⟨p, hp, hm⟩
  named := ⟨n, rfl⟩
  behind := Nat.le_refl _
  line_eq := congrArg Nat.cast (lineAt_piece htext (pos_le_of_mem_findAll hm))

theorem documented_of_mem_file (hm : m ∈ p.findAll source) (n : Nat)
    (hp : p ∈ lang.patterns kind) :
    lang.Documented kind source (m.name n) ((lang.comments source).textAt m.start.pos) 0
      (lineAt source m.start.pos) ⟨0, source, m⟩ :=
  documented_of_mem (show source <+: source.drop 0 from prefix_refl _) hm n (fun _ => ⟨rfl, rfl⟩) hp

theorem rest_stop (h : m ∈ p.findAll source) : m.stop.rest = source.drop m.stop.pos := by
  obtain ⟨b, t, u, rfl, -, -, hstop⟩ := Pattern.reads_of_mem_findAll h
  rw [hstop, ← append_assoc]
  exact drop_left.symm

theorem braceBody_within (h : m ∈ p.findAll source) :
    braceBody m.stop.rest <+: source.drop m.stop.pos :=
  rest_stop h ▸ take_prefix _ _

theorem mem_behind (hm : m ∈ p.findAll source) : m.stop.pos ∈
    ((p.findAll source).filter fun m' => m'.name 1 == m.name 1).map fun m => m.stop.pos :=
  mem_map.2 ⟨m, mem_filter.2 ⟨hm, beq_self_eq_true _⟩, rfl⟩

end Pieces

theorem Ruby.joinWith_bodyLines (depth : Nat) (lines : List (List Char)) :
    joinWith "\n" (bodyLines depth lines) <+: joinWith "\n" lines := by
  have hcons {line : List Char} {xs ys : List (List Char)}
      (h : joinWith "\n" xs <+: joinWith "\n" ys) (hnil : ys = [] → xs = []) :
      joinWith "\n" (line :: xs) <+: joinWith "\n" (line :: ys) := by
    cases xs with
    | nil =>
      obtain ⟨u, hu⟩ := exists_joinWith_cons "\n" line ys
      exact ⟨u, by rw [hu]; simp [joinWith]⟩
    | cons x xs =>
      cases ys with
      | nil => cases hnil rfl
      | cons y ys =>
        rw [joinWith] at h ⊢
        rw [intercalate_cons_cons, joinWith, intercalate_cons_cons]
        exact (prefix_append_right_inj _).2 h
  have hnil (depth : Nat) {lines : List (List Char)} (h : lines = []) :
      bodyLines depth lines = [] := by rw [h, bodyLines]
  fun_induction bodyLines depth lines with
  | case1 => exact prefix_refl _
  | case2 => exact nil_prefix
  | case3 _ _ _ _ _ _ _ _ ih => exact hcons ih (hnil _)
  | case4 _ _ _ _ _ _ _ ih => exact hcons ih (hnil _)

theorem Ruby.body_within (cs : List Char) :
    body cs <+: cs.drop ((cs.takeWhile (· != '\n')).length + 1) := by
  have hjoin : joinWith "\n" (cut '\n' cs) = cs := by
    rw [cut_eq_splitOn]
    exact intercalate_splitOn '\n'
  refine (Ruby.joinWith_bodyLines 1 _).trans ?_
  cases hcut : cut '\n' cs with
  | nil => exact nil_prefix
  | cons l ls =>
    cases ls with
    | nil => exact nil_prefix
    | cons l' ls =>
      have hl : ∀ c ∈ l, (c != '\n') = true := fun c hc => by
        simpa using (mem_cut (hcut ▸ mem_cons_self) c hc).2
      have hcs : cs = l ++ '\n' :: joinWith "\n" (l' :: ls) := by
        rw [← hjoin, hcut]
        rfl
      rw [hcs, takeWhile_append_of_pos hl, takeWhile_cons_of_neg (by decide),
        append_nil, tail_cons, ← drop_drop, drop_left]
      exact prefix_refl _

/-! ## The languages -/

section Languages

variable {ep : Bool} {path : Path} {source : List Char}

theorem documented_of_mem_bare {lang : Language} {p : Pattern} {m : Match}
    (hm : m ∈ p.findAll source) (hp : p ∈ lang.patterns .type) :
    (∃ m', lang.Documented .type source (m.name 1) ((lang.comments source).textAt m.start.pos) 0
      (lineAt source m.start.pos) ⟨0, source, m'⟩) ∧ ∀ f ∈ ([] : List Callable),
        ∃ origin ∈ lang.origins source (m.name 1),
          ∃ s, lang.Documented .method source f.name f.doc origin f.line s :=
  ⟨⟨_, documented_of_mem_file hm 1 hp⟩, nofun⟩

theorem Cpp.locates : cpp.Locates source (document ep path source) where
  functions := by
    simp only [document, mem_map, mem_filter]
    rintro _ ⟨m, ⟨hm, -⟩, rfl⟩
    exact ⟨_, documented_of_mem_file hm 2 (by simp)⟩
  types := by
    simp only [document, mem_append, mem_map, mem_filter]
    rintro _ (⟨m, ⟨hm, -⟩, rfl⟩ | ⟨m, ⟨hm, -⟩, rfl⟩)
    · refine ⟨⟨_, documented_of_mem_file hm 1 (by simp)⟩, fun f hf => ?_⟩
      simp only [methods, mem_map, mem_filter] at hf
      obtain ⟨m', ⟨hm', -⟩, rfl⟩ := hf
      exact ⟨_, mem_behind hm, _, documented_of_mem (braceBody_within hm) hm' 2 (by simp) (by simp)⟩
    · exact documented_of_mem_bare hm (by simp)

theorem Kotlin.locates : kotlin.Locates source (document ep path source) where
  functions := by
    simp only [document, mem_map, mem_filter]
    rintro _ ⟨m, ⟨hm, -⟩, rfl⟩
    exact ⟨_, documented_of_mem_file hm 1 (by simp)⟩
  types := by
    simp only [document, mem_append, mem_map, mem_filter]
    rintro _ ((⟨m, ⟨hm, -⟩, rfl⟩ | ⟨m, ⟨hm, -⟩, rfl⟩) | ⟨m, ⟨hm, -⟩, rfl⟩)
    · refine ⟨⟨_, documented_of_mem_file hm 1 (by simp)⟩, fun f hf => ?_⟩
      simp only [methods, mem_map, mem_filter] at hf
      obtain ⟨m', ⟨hm', -⟩, rfl⟩ := hf
      exact ⟨_, mem_behind hm, _, documented_of_mem (braceBody_within hm) hm' 1 (by simp) (by simp)⟩
    all_goals exact documented_of_mem_bare hm (by simp)

theorem Ruby.documented_of_mem_methods {isMethod : Bool} {kind : Kind} {text : List Char}
    {start : Nat} (hkind : kind ≠ .type) (htext : text <+: source.drop start) {f : Callable}
    (hf : f ∈ methods ep isMethod text) :
    ∃ m, ruby.Documented kind source f.name f.doc start f.line ⟨start, text, m⟩ := by
  simp only [methods, mem_map, mem_filter] at hf
  obtain ⟨m, ⟨hm, -⟩, rfl⟩ := hf
  refine ⟨_, documented_of_mem htext hm 1 (by simp) ?_⟩
  cases kind <;> simp_all [patterns]

theorem Ruby.locates : ruby.Locates source (document ep path source) where
  functions := fun _ hf => Ruby.documented_of_mem_methods (by simp) (prefix_refl _) hf
  types := by
    simp only [document, mem_append, mem_map, mem_filter]
    rintro _ (⟨m, ⟨hm, -⟩, rfl⟩ | ⟨m, ⟨hm, -⟩, rfl⟩)
    · exact documented_of_mem_bare hm (by simp)
    · refine ⟨⟨_, documented_of_mem_file hm 1 (by simp)⟩, fun f hf => ?_⟩
      have hbody : body m.stop.rest <+:
          source.drop (m.stop.pos + ((m.stop.rest.takeWhile (· != '\n')).length + 1)) := by
        rw [← drop_drop, ← rest_stop hm]
        exact Ruby.body_within _
      have hmethod : Kind.method ≠ .type := by simp
      obtain ⟨m', hm'⟩ := Ruby.documented_of_mem_methods hmethod hbody hf
      exact ⟨_, mem_map.2 ⟨m, mem_filter.2 ⟨hm, beq_self_eq_true _⟩, rfl⟩, _, hm'⟩

theorem TypeScript.locates : typescript.Locates source (document ep path source) where
  functions := by
    simp only [document, mem_append, mem_map, mem_filter]
    rintro _ (⟨m, ⟨hm, -⟩, rfl⟩ | ⟨m, ⟨hm, -⟩, rfl⟩) <;>
      exact ⟨_, documented_of_mem_file hm 1 (by simp)⟩
  types := by
    simp only [document, mem_append, mem_map, mem_filter]
    rintro _ (⟨m, ⟨hm, -⟩, rfl⟩ | ⟨m, ⟨hm, -⟩, rfl⟩)
    · refine ⟨⟨_, documented_of_mem_file hm 1 (by simp)⟩, fun f hf => ?_⟩
      simp only [methods, mem_map, mem_filter] at hf
      obtain ⟨m', ⟨hm', -⟩, rfl⟩ := hf
      exact ⟨_, mem_behind hm, _, documented_of_mem (braceBody_within hm) hm' 1 (by simp) (by simp)⟩
    · exact documented_of_mem_bare hm (by simp)

variable {d : ModuleDoc}

theorem Go.locates (h : document ep path source = some d) : go.Locates source d := by
  rw [document] at h
  split at h
  · cases h
  obtain rfl := Option.some.inj h
  constructor
  · simp only [mem_map, mem_filter]
    rintro _ ⟨m, ⟨hm, -⟩, rfl⟩
    exact ⟨_, documented_of_mem_file hm 1 (by simp)⟩
  · simp only [mem_append, mem_map, mem_filter]
    rintro _ (⟨m, ⟨hm, -⟩, rfl⟩ | ⟨m, ⟨hm, -⟩, rfl⟩)
    · refine ⟨⟨_, documented_of_mem_file hm 1 (by simp)⟩, fun f hf => ?_⟩
      simp only [methods, mem_map, mem_filter] at hf
      obtain ⟨m', ⟨hm', -⟩, rfl⟩ := hf
      exact ⟨0, mem_singleton_self 0, _, documented_of_mem_file hm' 3 (by simp)⟩
    · exact documented_of_mem_bare hm (by simp)

theorem Rust.locates : rust.Locates source (document ep path source) where
  functions := by
    simp only [document, mem_map, mem_filter]
    rintro _ ⟨m, ⟨hm, -⟩, rfl⟩
    exact ⟨_, documented_of_mem_file hm 1 (by simp)⟩
  types := by
    simp only [document, mem_append, mem_map, mem_filter]
    rintro _ ((⟨m, ⟨hm, -⟩, rfl⟩ | ⟨m, ⟨hm, -⟩, rfl⟩) | ⟨m, ⟨hm, -⟩, rfl⟩)
    · refine ⟨⟨_, documented_of_mem_file hm 1 (by simp)⟩, fun f hf => ?_⟩
      simp only [methods, methodsAt, mem_flatMap, mem_map, mem_filter] at hf
      obtain ⟨block, -, m', ⟨hm', -⟩, rfl⟩ := hf
      -- The body of the block is searched, but the line is counted from the start of the file.
      exact ⟨0, mem_singleton_self 0, ⟨block.stop.pos, _, m'⟩, ⟨List.take_prefix _ _,
        ⟨_, by simp, hm'⟩, ⟨1, rfl⟩, Nat.zero_le _, rfl⟩, rfl, by simp⟩
    all_goals exact documented_of_mem_bare hm (by simp)

theorem mem_types_of_mapM {p : Pattern} {keeps : Match → Bool}
    {methods : Match → Except Fault (List Callable)} {type : Match → List Callable → TypeDecl}
    {ts : List TypeDecl} {t : TypeDecl}
    (h : ((p.findAll source).filter keeps).mapM (fun m => do pure (type m (← methods m))) = .ok ts)
    (ht : t ∈ ts) : ∃ m ∈ p.findAll source, ∃ fs, methods m = .ok fs ∧ t = type m fs := by
  obtain ⟨m, hm, ht⟩ := Except.mem_of_mapM h ht
  obtain ⟨fs, hfs, ht⟩ := Except.bind_ok_iff.1 ht
  exact ⟨m, (mem_filter.1 hm).1, fs, hfs, (Except.pure_ok_iff.1 ht).symm⟩

theorem Java.locates (h : document ep path source = .ok d) : java.Locates source d := by
  obtain ⟨classes, hclasses, hd⟩ := Except.bind_ok_iff.1 h
  obtain rfl := Except.pure_ok_iff.1 hd
  refine ⟨nofun, ?_⟩
  simp only [mem_append, mem_map, mem_filter]
  rintro t ((ht | ⟨m, ⟨hm, -⟩, rfl⟩) | ⟨m, ⟨hm, -⟩, rfl⟩)
  · obtain ⟨m, hm, fs, hfs, rfl⟩ := mem_types_of_mapM hclasses ht
    refine ⟨⟨_, documented_of_mem_file hm 1 (by simp)⟩, fun f hf => ?_⟩
    obtain ⟨m', hm', hf⟩ := Except.mem_of_mapM hfs hf
    obtain ⟨ps, -, hf⟩ := Except.bind_ok_iff.1 hf
    obtain rfl := Except.pure_ok_iff.1 hf
    exact ⟨_, mem_behind hm, _, documented_of_mem (braceBody_within hm) (mem_filter.1 hm').1 2
      (by simp) (by simp)⟩
  all_goals exact documented_of_mem_bare hm (by simp)

theorem CSharp.documented_of_mem_methods {start : Nat} {fs : List Callable}
    (h : methods ep source start = .ok fs) {f : Callable} (hf : f ∈ fs) :
    ∃ s, csharp.Documented .method source f.name f.doc start f.line s := by
  obtain ⟨m, hm, hf⟩ := Except.mem_of_mapM h hf
  obtain ⟨ps, -, hf⟩ := Except.bind_ok_iff.1 hf
  obtain rfl := Except.pure_ok_iff.1 hf
  exact ⟨_, documented_of_mem (List.take_prefix _ _) (mem_filter.1 hm).1 2 (by simp) (by simp)⟩

theorem CSharp.locates (h : document ep path source = .ok d) :
    csharp.Locates source d := by
  obtain ⟨classes, hclasses, h⟩ := Except.bind_ok_iff.1 h
  obtain ⟨structs, hstructs, hd⟩ := Except.bind_ok_iff.1 h
  obtain rfl := Except.pure_ok_iff.1 hd
  refine ⟨nofun, ?_⟩
  simp only [mem_append, mem_map, mem_filter]
  rintro t (((ht | ⟨m, ⟨hm, -⟩, rfl⟩) | ht) | ⟨m, ⟨hm, -⟩, rfl⟩)
  · obtain ⟨m, hm, fs, hfs, rfl⟩ := mem_types_of_mapM hclasses ht
    exact ⟨⟨_, documented_of_mem_file hm 1 (by simp)⟩, fun f hf =>
      ⟨_, mem_append_left _ (mem_behind hm), CSharp.documented_of_mem_methods hfs hf⟩⟩
  · exact documented_of_mem_bare hm (by simp)
  · obtain ⟨m, hm, fs, hfs, rfl⟩ := mem_types_of_mapM hstructs ht
    exact ⟨⟨_, documented_of_mem_file hm 1 (by simp)⟩, fun f hf =>
      ⟨_, mem_append_right _ (mem_behind hm), CSharp.documented_of_mem_methods hfs hf⟩⟩
  · exact documented_of_mem_bare hm (by simp)

end Languages

/-! ## The line of a declaration -/

/-- `name` is declared in a file with its first character that is no blank at `pos`; its match has
the blanks `gap` before that character. In Python a keyword stands there. -/
def Language.Declares (lang : Language) (kind : Kind) (source : List Char) (name : String)
    (gap : List Char) (pos : Nat) : Prop :=
  if lang = python then
    gap = [] ∧ ∃ body d, Syntax.parse source = some body ∧ d ∈ declarations body ∧
      d.name = name ∧ ∃ word ∈ d.openers, word.toList <+: source.drop pos
  else
    ∃ s : Finding, s.text <+: source.drop s.start ∧
      (∃ p ∈ lang.patterns kind, s.found ∈ p.findAll s.text) ∧ (∃ n, s.found.name n = name) ∧
      gap = s.gap ∧ pos = s.first ∧ pos < s.start + s.found.stop.pos

/-- The line on which the first character of a declaration stands is `line`, further down by the
lines of the file before `origin` and by the lines that end in the blanks of its match. -/
def Language.Reports (lang : Language) (kind : Kind) (source : List Char) (name : String)
    (origin : Nat) (line : Int) : Prop :=
  ∃ gap pos, lang.Declares kind source name gap pos ∧
    (source.drop pos).head?.any (!isBlank ·) = true ∧
    (lineAt source pos : Int) = line + (source.take origin).count '\n' + gap.count '\n' ∧
    (lang.isTight kind = true → '\n' ∉ gap)

section Lines

variable {lang : Language} {kind : Kind} {source : List Char}

theorem Language.Sited.startsLine {name : String} {origin : Nat} {line : Int} {s : Finding}
    (h : lang.Sited kind source name origin line s) :
    (s.text.take s.found.start.pos).getLast?.all (· == '\n') = true := by
  obtain ⟨p, hp, hm⟩ := h.found
  obtain ⟨b, t, u, htext, ht, hstart, -⟩ := Pattern.reads_of_mem_findAll hm
  have htake : s.text.take s.found.start.pos = b := by
    rw [hstart, htext]
    exact take_left
  rw [htake]
  exact ht.startsLine (startsLine_patterns hp)

theorem Language.Sited.reports {name : String} {origin : Nat} {line : Int} {s : Finding}
    (hlang : lang ≠ .python) (h : lang.Sited kind source name origin line s) :
    lang.Reports kind source name origin line := by
  obtain ⟨p, hp, hm⟩ := h.found
  obtain ⟨b, t, u, htext, ht, hstart, hstop⟩ := Pattern.reads_of_mem_findAll hm
  have hsolid := ht.exists_not_isBlank (opens_patterns hp).1
  have hgap : s.gap = t.takeWhile isBlank := by
    rw [Finding.gap, hstart]
    exact Pattern.takeWhile_append_of_exists hsolid
  have hpos : s.pos = s.start + b.length := by rw [Finding.pos, hstart]; rfl
  -- What follows the blanks of the match is the rest of what was read.
  obtain ⟨v, hv⟩ := h.piece
  have hrest : source.drop s.pos =
      t.takeWhile isBlank ++ (t.dropWhile isBlank ++ (u ++ v)) := by
    rw [hpos, ← drop_drop, ← hv, htext, append_assoc, drop_left, append_assoc,
      ← append_assoc (t.takeWhile _), takeWhile_append_dropWhile]
  obtain ⟨c, cs, hdrop⟩ : ∃ c cs, t.dropWhile isBlank = c :: cs := by
    refine exists_cons_of_ne_nil fun hnil => ?_
    obtain ⟨c, hc, hblank⟩ := hsolid
    exact Bool.false_ne_true (hblank.symm.trans (dropWhile_eq_nil_iff.1 hnil c hc))
  have hfirst : source.drop s.first = c :: (cs ++ (u ++ v)) := by
    rw [Finding.first, ← drop_drop, hrest, hgap, drop_left, hdrop]
    rfl
  refine ⟨s.gap, s.first, ?_, ?_, ?_, fun htight => ?_⟩
  · rw [Declares, if_neg hlang]
    refine ⟨s, h.piece, h.found, h.named, rfl, rfl, ?_⟩
    have hlen : t.length = (t.takeWhile isBlank).length + (cs.length + 1) := by
      rw [← length_cons, ← hdrop, ← length_append, takeWhile_append_dropWhile]
    rw [Finding.first, hpos, hgap, hstop]
    simp only [Cursor.between, length_append]
    omega
  · have hc := head?_dropWhile_not isBlank t
    rw [hdrop] at hc
    rw [hfirst, head?_cons, Option.any_some, show isBlank c = false from hc]
    rfl
  · have hfeeds : (source.take s.first).count '\n' =
        (source.take s.pos).count '\n' + s.gap.count '\n' := by
      rw [Finding.first, take_add, count_append, hrest, hgap, take_left]
    have hline := h.line_eq
    simp only [lineAt] at hline ⊢
    omega
  · rw [hgap]
    have hopening := ht.not_mem_opening (opens_patterns hp).2 (feed_mem_unopened htight)
    exact fun hmem => hopening (mem_append_left _ hmem)

theorem reports_of_mem_declarations {body : List Syntax.Stmt} {d : Declaration}
    (hparse : Syntax.parse source = some body) (hd : d ∈ declarations body) :
    python.Reports kind source d.name 0 d.line := by
  obtain ⟨word, hword, before, after, hsource, hline⟩ := standsIn_of_mem hparse hd
  have hdrop : source.drop before.length = word.toList ++ after := by
    rw [hsource, append_assoc, drop_left]
  have hopener : word.toList.head?.any (!isBlank ·) = true := by
    have hall : ∀ word ∈ ["class", "def", "async"],
        word.toList.head?.any (!isBlank ·) = true := by decide
    refine hall word ?_
    rw [Declaration.openers] at hword
    split at hword <;> simp_all
  refine ⟨[], before.length, ?_, ?_, ?_, fun _ => not_mem_nil⟩
  · rw [Declares, if_pos rfl]
    exact ⟨rfl, body, d, hparse, hd, rfl, word, hword, hdrop ▸ prefix_append _ _⟩
  · rw [hdrop, head?_append]
    cases hhead : word.toList.head? with
    | none => rw [hhead] at hopener; cases hopener
    | some c => simpa [hhead] using hopener
  · rw [lineAt, hsource, append_assoc, take_left, hline]
    simp
    omega

theorem mem_declarations_of_mem {body : List Syntax.Stmt} {s : Syntax.Stmt} (hs : s ∈ body)
    {d : Declaration} (hd : Declaration.ofStmt? s = some d ∨
      d ∈ formDeclarations s.form) : d ∈ declarations body := by
  obtain ⟨xs, ys, rfl⟩ := append_of_mem hs
  refine (perm_declarations_append xs (s :: ys)).mem_iff.2 (mem_append_right _ ?_)
  refine (perm_declarations_cons s ys).mem_iff.2 (mem_append_left _ ?_)
  rcases hd with hd | hd
  · exact mem_append_left _ (by simp [hd])
  · exact mem_append_right _ hd

theorem Language.Python.reports_of_callable {isMethod : Bool} {body : List Syntax.Stmt}
    {s : Syntax.Stmt} {f : Callable} (hparse : Syntax.parse source = some body)
    (h : callable? isMethod s = some f)
    (hmem : ∀ d, Declaration.ofStmt? s = some d → d ∈ declarations body) :
    python.Reports kind source f.name 0 f.line := by
  obtain ⟨line, endLine, form⟩ := s
  cases form
  case function isAsync name ps result decorators body =>
    obtain rfl := Option.some.inj h
    exact reports_of_mem_declarations hparse (hmem _ rfl)
  all_goals cases h

theorem Language.Python.reports [Machine] {ep : Bool} {path : Path} {d : ModuleDoc}
    (h : document ep path source = .ok (some d)) :
    (∀ f ∈ d.functions, python.Reports .function source f.name 0 f.line) ∧
      ∀ t ∈ d.types, python.Reports .type source t.name 0 t.line ∧
        ∀ f ∈ t.methods, python.Reports .method source f.name 0 f.line := by
  obtain ⟨_, htree, hd⟩ := Except.bind_ok_iff.1 h
  obtain ⟨body, rfl, rfl⟩ := Option.map_eq_some_iff.1 (Except.pure_ok_iff.1 hd)
  have hparse := Syntax.parse_of_readTree htree
  refine ⟨fun f hf => ?_, fun t ht => ?_⟩
  · obtain ⟨s, hs, hf⟩ := mem_filterMap.1 (mem_filter.1 hf).1
    exact reports_of_callable hparse hf fun d hd => mem_declarations_of_mem hs (.inl hd)
  · obtain ⟨⟨line, endLine, form⟩, hs, ht⟩ := mem_filterMap.1 (mem_filter.1 ht).1
    cases form
    case type name bases keywords decorators inner =>
      obtain rfl := Option.some.inj ht
      refine ⟨reports_of_mem_declarations hparse (mem_declarations_of_mem hs (.inl rfl)), ?_⟩
      intro f hf
      obtain ⟨s, hs', hf⟩ := mem_filterMap.1 (mem_filter.1 hf).1
      exact reports_of_callable hparse hf fun d hd =>
        mem_declarations_of_mem hs (.inr (mem_declarations_of_mem hs' (.inl hd)))
    all_goals cases ht

theorem Language.locates_of_document [Machine] {ep : Bool} {path : Path} {d : ModuleDoc}
    (hlang : lang ≠ .python) (h : lang.document ep path source = .ok (some d)) :
    lang.Locates source d := by
  cases lang with
  | cpp =>
    obtain rfl := Option.some.inj (Except.ok.inj h)
    exact Cpp.locates
  | csharp => exact CSharp.locates (map_some_inj.1 h)
  | go => exact Go.locates (Except.ok.inj h)
  | java => exact Java.locates (map_some_inj.1 h)
  | kotlin =>
    obtain rfl := Option.some.inj (Except.ok.inj h)
    exact Kotlin.locates
  | python => exact absurd rfl hlang
  | ruby =>
    obtain rfl := Option.some.inj (Except.ok.inj h)
    exact Ruby.locates
  | rust =>
    obtain rfl := Option.some.inj (Except.ok.inj h)
    exact Rust.locates
  | typescript =>
    obtain rfl := Option.some.inj (Except.ok.inj h)
    exact TypeScript.locates

/-- The line reported for a function, a type or a method of a file is the line of its first
character that is no blank, less the lines before the position from which it is counted and less the
lines that end in the blanks that its pattern takes first. Of the latter there are none in tight
languages, and the former is the start of the file but for methods. -/
theorem document_reports [Machine] (lang : Language) (ep : Bool) (path : Path)
    (source : List Char) (d : ModuleDoc) (h : lang.document ep path source = .ok (some d)) :
    (∀ f ∈ d.functions, lang.Reports .function source f.name 0 f.line) ∧
      ∀ t ∈ d.types, lang.Reports .type source t.name 0 t.line ∧
        ∀ f ∈ t.methods, ∃ origin ∈ lang.origins source t.name,
          lang.Reports .method source f.name origin f.line := by
  by_cases hlang : lang = .python
  · subst hlang
    obtain ⟨hfunctions, htypes⟩ := Python.reports h
    exact ⟨hfunctions, fun t ht => ⟨(htypes t ht).1, fun f hf =>
      ⟨0, mem_singleton_self 0, (htypes t ht).2 f hf⟩⟩⟩
  · obtain ⟨hfunctions, htypes⟩ := locates_of_document hlang h
    refine ⟨fun f hf => ?_, fun t ht => ⟨?_, fun f hf => ?_⟩⟩
    · obtain ⟨s, hs⟩ := hfunctions f hf
      exact hs.toSited.reports hlang
    · obtain ⟨s, hs⟩ := (htypes t ht).1
      exact hs.toSited.reports hlang
    · obtain ⟨origin, horigin, s, hs⟩ := (htypes t ht).2 f hf
      exact ⟨origin, horigin, hs.toSited.reports hlang⟩

/-- A class on the second line with a method on the third, which is reported on the first. -/
def lowMethod : List Char := "\nclass A \x7b\n  void f() \x7b\x7d\n\x7d\n".toList

theorem document_reports_lowMethod :
    ∃ d, java.document false (.ofString "A.java") lowMethod = .ok (some d) ∧
      (d.types.flatMap fun t => t.methods.map Callable.line) = [1] ∧
      (∀ t ∈ d.types, ∀ f ∈ t.methods, ∃ origin ∈ java.origins lowMethod t.name,
        java.Reports .method lowMethod f.name origin f.line) ∧
      java.origins lowMethod "A" = [10] ∧ Text.lineAt lowMethod 13 = 3 := by
  have hlines : (java.document false (.ofString "A.java") lowMethod).toOption.join.map
      (fun d => d.types.flatMap fun t => t.methods.map Callable.line) = some [1] := by
    decide +kernel
  obtain ⟨d, hd, hlines⟩ := Option.map_eq_some_iff.1 hlines
  have hok : java.document false (.ofString "A.java") lowMethod = .ok (some d) := by
    generalize java.document false (.ofString "A.java") lowMethod = r at hd
    cases r with
    | error e => cases hd
    | ok d' => exact congrArg Except.ok hd
  exact ⟨d, hok, hlines, fun t ht => ((document_reports _ _ _ _ d hok).2 t ht).2,
    by decide +kernel, by decide⟩

end Lines

end Docsmith
