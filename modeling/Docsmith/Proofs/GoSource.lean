/-
Go files as a formatter lays them out. `SourceFile` is a package and a list of declarations, each a
function, a structure or a method with a pointer to its type, and `SourceFile.text` the file: the
declaration at the start of its line behind the lines of its comment, a body of indented lines and a
closing brace, a blank line before each declaration. What it should document is the functions and
the structures, each with the methods of its type (`SourceFile.module`).
-/
import Docsmith.Language.Go
import Docsmith.Proofs.Pattern

namespace Docsmith.Go

open Pattern List
open Cursor (between)
open Text

/-! ## Files -/

/-- A name of ASCII letters, digits and underscores that starts with no digit. -/
structure Name where
  text : String
  start : text.toList.head?.any (fun c => c.isAlpha || c == '_') = true
  chars : text.toList.all isAsciiWord = true

/-- A name that starts with a capital. -/
structure ExportedName extends Name where
  capital : text.toList.head?.any Char.isUpper = true

/-- A type, written with letters, digits and the characters `_`, `.`, `*`, `[` and `]`. -/
structure TypeText where
  text : String
  nonempty : text ≠ ""
  chars : text.toList.all (fun c => isWord c || among ".*[]" c) = true

/-- The text of a comment line, without blanks around it. -/
structure DocText where
  text : String
  nonempty : text ≠ ""
  trimmed : trim text.toList = text.toList
  oneLine : '\n' ∉ text.toList ∧ '\r' ∉ text.toList

/-- The text of a line in a body, behind its indentation. -/
structure BodyText where
  text : String
  start : text.toList.head?.any (fun c => isBlank c || c == '\x7b') = false
  oneLine : '\n' ∉ text.toList ∧ '\r' ∉ text.toList

/-- A function without the word that introduces it. -/
structure Signature where
  name : ExportedName
  params : List (Name × TypeText)
  result : Option TypeText

/-- What is declared. -/
inductive Head where
  | function (sig : Signature)
  | struct (name : ExportedName)
  | method (receiver type : Name) (sig : Signature)

/-- A declaration with the comment before it and its body. -/
structure Decl where
  docs : List DocText
  head : Head
  body : List BodyText

structure SourceFile where
  package : Name
  decls : List Decl

def paramText (p : Name × TypeText) : List Char := p.1.text.toList ++ ' ' :: p.2.text.toList

def Signature.paramsText (s : Signature) : List Char :=
  joinWith ", " (s.params.map paramText)

/-- The result as it is written, with the blank before it. -/
def Signature.resultText (s : Signature) : List Char :=
  match s.result with
  | none => []
  | some type => ' ' :: type.text.toList

/-- A function behind the word that introduces it, up to the brace. -/
def Signature.line (s : Signature) : List Char :=
  s.name.text.toList ++ '(' :: s.paramsText ++ ')' :: s.resultText ++ [' ', '\x7b']

def Signature.functionLine (s : Signature) : List Char := "func".toList ++ ' ' :: s.line

def Signature.methodLine (s : Signature) (receiver type : Name) : List Char :=
  "func".toList ++ ' ' :: '(' :: receiver.text.toList ++ ' ' :: '*' :: type.text.toList ++
    ')' :: ' ' :: s.line

def ExportedName.structLine (x : ExportedName) : List Char :=
  "type".toList ++ ' ' :: x.text.toList ++ ' ' :: "struct".toList ++ [' ', '\x7b']

def Head.line : Head → List Char
  | function sig => sig.functionLine
  | struct name => name.structLine
  | method receiver type sig => sig.methodLine receiver type

namespace Decl

def doc (d : Decl) : String := "\n".intercalate (d.docs.map (·.text))

def docLines (d : Decl) : List (List Char) :=
  d.docs.map fun t => "//".toList ++ ' ' :: t.text.toList

def bodyLines (d : Decl) : List (List Char) :=
  d.body.map (fun t => '\t' :: t.text.toList) ++ [['\x7d']]

def lines (d : Decl) : List (List Char) := d.docLines ++ d.head.line :: d.bodyLines

end Decl

namespace SourceFile

def lines (f : SourceFile) : List (List Char) :=
  ("package".toList ++ ' ' :: f.package.text.toList) :: f.decls.flatMap fun d => [] :: d.lines

def text (f : SourceFile) : String := String.ofList (unlines f.lines)

end SourceFile

/-! ## What they document -/

/-- Declarations with the numbers of their lines, from the blank line `line` on. -/
def numberedFrom (line : Nat) : List Decl → List (Nat × Decl)
  | [] => []
  | d :: ds => (line + d.docs.length + 1, d) :: numberedFrom (line + d.lines.length + 1) ds

namespace SourceFile

def numbered (f : SourceFile) : List (Nat × Decl) := numberedFrom 2 f.decls

end SourceFile

/-- A function or method in line `line`. -/
def Signature.callable (s : Signature) (isMethod : Bool) (line : Nat) (d : Decl) : Callable :=
  { name := s.name.text
    params := s.params.map fun p => ⟨p.1.text, p.2.text, ""⟩
    result := (s.result.map (·.text)).getD ""
    doc := d.doc
    isMethod := isMethod
    line := line }

namespace SourceFile

def functions (f : SourceFile) : List Callable :=
  f.numbered.filterMap fun (line, d) =>
    match d.head with
    | .function sig => some (sig.callable false line d)
    | _ => none

def methodsOf (f : SourceFile) (name : String) : List Callable :=
  f.numbered.filterMap fun (line, d) =>
    match d.head with
    | .method _ type sig => if type.text = name then some (sig.callable true line d) else none
    | _ => none

def structs (f : SourceFile) : List TypeDecl :=
  f.numbered.filterMap fun (line, d) =>
    match d.head with
    | .struct name =>
      some
        { name := name.text
          doc := d.doc
          methods := f.methodsOf name.text
          marks := ["struct"]
          line := line }
    | _ => none

def module (f : SourceFile) (path : Path) : ModuleDoc :=
  { path := path.text
    name :=
      if f.package.text = path.stem then f.package.text else f.package.text ++ "." ++ path.stem
    functions := f.functions
    types := f.structs }

end SourceFile

/-! ## Names and types -/

namespace Name

theorem isWord (x : Name) : x.text.toList.all isWord = true := by
  rw [all_eq_true]
  exact fun c hc => isWord_of_isAsciiWord (all_eq_true.1 x.chars c hc)

theorem ne_nil (x : Name) : x.text.toList ≠ [] := by
  intro h
  have := x.start
  rw [h] at this
  cases this

theorem not_mem (x : Name) {c : Char} (h : Text.isWord c = false) : c ∉ x.text.toList := by
  intro hc
  rw [all_eq_true.1 x.isWord c hc] at h
  cases h

theorem isBlank (x : Name) {c : Char} (hc : c ∈ x.text.toList) : isBlank c = false :=
  isBlank_of_isWord (all_eq_true.1 x.isWord c hc)

theorem head?_append (x : Name) (r : List Char) :
    ∃ c ∈ x.text.toList, (x.text.toList ++ r).head? = some c := by
  obtain ⟨c, cs, hcs⟩ := exists_cons_of_ne_nil x.ne_nil
  rw [hcs]
  exact ⟨c, mem_cons_self, rfl⟩

theorem startsWord (x : Name) (r : List Char) :
    (x.text.toList ++ r).head?.any Text.isBlank = false := by
  obtain ⟨c, hc, hhead⟩ := x.head?_append r
  rw [hhead]
  exact x.isBlank hc

end Name

namespace TypeText

theorem isBlank (x : TypeText) {c : Char} (hc : c ∈ x.text.toList) : isBlank c = false := by
  have := all_eq_true.1 x.chars c hc
  rcases Bool.or_eq_true _ _ |>.mp this with h | h
  · exact isBlank_of_isWord h
  · have hall : ".*[]".toList.any Text.isBlank = false := by decide
    exact Bool.eq_false_iff.2 (any_eq_false.1 hall c (contains_iff_mem.1 h))

theorem not_mem (x : TypeText) {c : Char} (hword : isWord c = false)
    (h : among ".*[]" c = false) : c ∉ x.text.toList := by
  intro hc
  have := all_eq_true.1 x.chars c hc
  rw [hword, h] at this
  cases this

theorem exists_cons (x : TypeText) : ∃ c cs, x.text.toList = c :: cs :=
  exists_cons_of_ne_nil fun h => x.nonempty (String.toList_eq_nil_iff.1 h)

theorem trim_eq (x : TypeText) : trim x.text.toList = x.text.toList := by
  rw [trim_eq_self]
  constructor
  · cases h : x.text.toList.head? with
    | none => rfl
    | some c => exact x.isBlank (mem_of_head? h)
  · cases h : x.text.toList.getLast? with
    | none => rfl
    | some c => exact x.isBlank (mem_of_getLast? h)

end TypeText

theorem ExportedName.shown (x : ExportedName) (ep : Bool) :
    keepsName ep x.text.toList = true ∧ isExported x.text.toList = true := by
  obtain ⟨c, cs, hcs⟩ := exists_cons_of_ne_nil x.ne_nil
  have hc : c.isUpper = true := by
    have := x.capital
    rw [hcs] at this
    exact this
  have hupper : isUpper c = true := by
    unfold Char.isUpper at hc
    simp only [decide_eq_true_eq, UInt32.le_iff_toNat_le] at hc
    have hlt : c.toNat < 128 := by
      have hval : c.toNat = c.val.toNat := rfl
      have hZ : 'Z'.val.toNat = 90 := rfl
      omega
    rw [isUpper, if_pos hlt]
    simpa [Char.le_def, UInt32.le_iff_toNat_le] using hc
  have hne : c ≠ '_' := by
    rintro rfl
    cases hc
  rw [hcs]
  refine ⟨?_, hupper⟩
  unfold keepsName
  split
  · rfl
  · rename_i h; exact absurd (cons.inj h).1 hne
  · rfl

/-! ## Lines -/

namespace Signature

theorem line_eq (s : Signature) : s.line =
    s.name.text.toList ++ (('(' :: s.paramsText ++ [')']) ++ (s.resultText ++ [' ', '\x7b'])) := by
  simp [line]

end Signature

-- Stated by hand: the generated equations take seconds on the texts in them.
theorem Signature.functionLine_eq (s : Signature) :
    s.functionLine = "func".toList ++ ' ' :: s.line := rfl

theorem Signature.methodLine_eq (s : Signature) (receiver type : Name) :
    s.methodLine receiver type = "func".toList ++ ' ' :: '(' :: receiver.text.toList ++
      ' ' :: '*' :: type.text.toList ++ ')' :: ' ' :: s.line := rfl

theorem ExportedName.structLine_eq (x : ExportedName) :
    x.structLine =
      "type".toList ++ ' ' :: x.text.toList ++ ' ' :: "struct".toList ++ [' ', '\x7b'] := rfl

/-- The characters of the lines of declarations. -/
def isCode (c : Char) : Bool := isWord c || among " .*[](),\x7b" c

theorem Name.isCode (x : Name) : x.text.toList.all isCode = true :=
  all_eq_true.2 fun c hc => by rw [Go.isCode, all_eq_true.1 x.isWord c hc]; rfl

theorem TypeText.isCode (x : TypeText) : x.text.toList.all isCode = true := by
  refine all_eq_true.2 fun c hc => ?_
  rcases Bool.or_eq_true _ _ |>.mp (all_eq_true.1 x.chars c hc) with h | h
  · rw [Go.isCode, h]; rfl
  · have hall : ".*[]".toList.all Go.isCode = true := by decide
    exact all_eq_true.1 hall c (contains_iff_mem.1 h)

theorem Signature.isCode (s : Signature) : s.line.all isCode = true := by
  have hparams : s.paramsText.all Go.isCode = true := by
    refine all_eq_true.2 fun c hc => ?_
    rcases mem_intercalate hc with h | ⟨l, hl, h⟩
    · have hall : ", ".toList.all Go.isCode = true := by decide
      exact all_eq_true.1 hall c h
    · obtain ⟨p, -, rfl⟩ := mem_map.1 hl
      have hpart : (paramText p).all Go.isCode = true := by
        rw [paramText, all_append, all_cons, p.1.isCode, p.2.isCode]; rfl
      exact all_eq_true.1 hpart c h
  have hresult : s.resultText.all Go.isCode = true := by
    rw [resultText]
    cases s.result with
    | none => rfl
    | some type => rw [all_cons, type.isCode]; rfl
  rw [line_eq]
  simp only [all_append, all_cons, s.name.isCode, hparams, hresult]
  rfl

theorem Head.isCode (h : Head) : h.line.all isCode = true := by
  cases h with
  | function s =>
    simp only [line, Signature.functionLine_eq, all_append, all_cons, s.isCode]
    rfl
  | struct name =>
    simp only [line, ExportedName.structLine_eq, all_append, all_cons, name.isCode]
    rfl
  | method receiver type s =>
    simp only [line, Signature.methodLine_eq, all_append, all_cons, receiver.isCode,
      type.isCode, s.isCode]
    rfl

theorem Head.not_mem_line (h : Head) {c : Char} (hc : Go.isCode c = false) : c ∉ h.line := by
  intro hmem
  rw [all_eq_true.1 h.isCode c hmem] at hc
  cases hc

namespace Decl

theorem not_mem_lines (d : Decl) : ∀ l ∈ d.lines, '\n' ∉ l ∧ '\r' ∉ l := by
  intro l hl
  simp only [lines, docLines, bodyLines, mem_append, mem_cons, mem_map,
    not_mem_nil, or_false] at hl
  rcases hl with ⟨t, -, rfl⟩ | rfl | ⟨t, -, rfl⟩ | rfl
  · have := t.oneLine
    simp [this.1, this.2]
  · exact ⟨d.head.not_mem_line rfl, d.head.not_mem_line rfl⟩
  · simpa using t.oneLine
  · decide

theorem head?_body (d : Decl) (r : List Char) :
    ((unlines d.bodyLines ++ r).dropWhile isBlank).head? ≠ some '\x7b' := by
  rw [bodyLines]
  induction d.body with
  | nil => simp [show isBlank '\x7d' = false from rfl]
  | cons t ts ih =>
    have hstart := t.start
    rw [map_cons, cons_append, unlines_cons, append_assoc, cons_append,
      cons_append, dropWhile_cons_of_pos rfl]
    cases htext : t.text.toList with
    | nil =>
      rw [nil_append, dropWhile_cons_of_pos rfl]
      exact ih
    | cons c cs =>
      rw [htext] at hstart
      simp only [head?_cons, Option.any_some, Bool.or_eq_false_iff,
        beq_eq_false_iff_ne] at hstart
      rw [cons_append, dropWhile_cons_of_neg (by rw [hstart.1]; decide)]
      simpa using hstart.2

theorem head?_line (d : Decl) : d.head.line.head? = some 'f' ∨ d.head.line.head? = some 't' := by
  cases d.head with
  | function s => exact .inl rfl
  | struct name => exact .inr rfl
  | method receiver type s => exact .inl rfl

end Decl

/-- The blank line and the comment before a declaration start with other characters, as do the lines
behind it. -/
theorem Decl.head?_docLines (d : Decl) :
    ∀ l ∈ [] :: d.docLines, '\n' ∉ l ∧
      ((l ++ ['\n']).head? = some '\n' ∨ (l ++ ['\n']).head? = some '/') := by
  intro l hl
  rcases mem_cons.1 hl with rfl | hl
  · exact ⟨not_mem_nil, .inl rfl⟩
  · refine ⟨(d.not_mem_lines l (mem_append_left _ hl)).1, .inr ?_⟩
    obtain ⟨t, -, rfl⟩ := mem_map.1 hl
    rfl

theorem Decl.head?_bodyLines (d : Decl) :
    ∀ l ∈ d.bodyLines, '\n' ∉ l ∧
      ((l ++ ['\n']).head? = some '\t' ∨ (l ++ ['\n']).head? = some '\x7d') := by
  intro l hl
  refine ⟨(d.not_mem_lines l (mem_append_right _ (mem_cons_of_mem _ hl))).1, ?_⟩
  rcases mem_append.1 hl with hl | hl
  · obtain ⟨t, -, rfl⟩ := mem_map.1 hl
    exact .inl rfl
  · rw [mem_singleton.1 hl]
    exact .inr rfl

/-! ## Where the declarations stand -/

def declsText (ds : List Decl) : List Char := unlines (ds.flatMap fun d => [] :: d.lines)

/-- A declaration in a file, between what stands before its line and what stands behind its body. -/
structure Spot where
  before : List Char
  decl : Decl
  after : List Char

/-- The place at which the line of the declaration starts. -/
def Spot.cursor (s : Spot) : Cursor :=
  between s.before (s.decl.head.line ++ '\n' :: (unlines s.decl.bodyLines ++ s.after))

/-- The declarations of a text that stands behind `b`. -/
def spots (b : List Char) : List Decl → List Spot
  | [] => []
  | d :: ds =>
    ⟨b ++ unlines ([] :: d.docLines), d, declsText ds⟩ :: spots (b ++ unlines ([] :: d.lines)) ds

theorem declsText_cons (d : Decl) (ds : List Decl) : declsText (d :: ds) =
    unlines ([] :: d.docLines) ++
      (d.head.line ++ '\n' :: (unlines d.bodyLines ++ declsText ds)) := by
  simp [declsText, Decl.lines]

variable {b : List Char} {ds : List Decl} {s : Spot}

theorem Spot.before_lineStart (h : s ∈ spots b ds) : s.before.getLast?.all (· == '\n') = true := by
  induction ds generalizing b with
  | nil => cases h
  | cons d ds ih =>
    rcases mem_cons.1 h with rfl | h
    · rw [getLast?_unlines _ (cons_ne_nil _ _)]
      rfl
    · exact ih h

theorem Spot.text_eq (h : s ∈ spots b ds) : b ++ declsText ds = s.before ++ s.cursor.rest := by
  induction ds generalizing b with
  | nil => cases h
  | cons d ds ih =>
    have htext : b ++ declsText (d :: ds) = b ++ unlines ([] :: d.lines) ++ declsText ds := by
      simp [declsText]
    rcases mem_cons.1 h with rfl | h
    · rw [declsText_cons, ← append_assoc]
      rfl
    · rw [htext]
      exact ih h

theorem Spot.before_eq (h : s ∈ spots b ds) : ∃ front, (∀ l ∈ front, '\n' ∉ l) ∧
    s.before = b ++ unlines (front ++ [] :: s.decl.docLines) := by
  induction ds generalizing b with
  | nil => cases h
  | cons d ds ih =>
    rcases mem_cons.1 h with rfl | h
    · exact ⟨[], nofun, rfl⟩
    · obtain ⟨front, hfront, hbefore⟩ := ih h
      refine ⟨[] :: d.lines ++ front, fun l hl => ?_, by rw [hbefore]; simp⟩
      rcases mem_append.1 hl with hl | hl
      · rcases mem_cons.1 hl with rfl | hl
        · exact not_mem_nil
        · exact (d.not_mem_lines l hl).1
      · exact hfront l hl

theorem map_spots (b : List Char) (ds : List Decl) :
    (spots b ds).map (fun s => (s.before.count '\n' + 1, s.decl)) =
      numberedFrom (b.count '\n' + 1) ds := by
  induction ds generalizing b with
  | nil => rfl
  | cons d ds ih =>
    have hdocs : (unlines ([] :: d.docLines)).count '\n' = d.docs.length + 1 := by
      rw [count_unlines fun l hl => (d.head?_docLines l hl).1]
      simp [Decl.docLines]
    have hlines : (unlines ([] :: d.lines)).count '\n' = d.lines.length + 1 := by
      rw [count_unlines]
      · rfl
      · intro l hl
        rcases mem_cons.1 hl with rfl | hl
        · exact not_mem_nil
        · exact (d.not_mem_lines l hl).1
    rw [spots, map_cons, ih, numberedFrom, count_append, count_append, hdocs, hlines]
    congr 2 <;> omega

theorem line_of_numberedFrom {e : Nat × Decl} (before : List (List Char))
    (h : e ∈ numberedFrom (before.length + 1) ds) :
    (before ++ ds.flatMap fun d => [] :: d.lines)[e.1 - 1]? = some e.2.head.line := by
  induction ds generalizing before with
  | nil => cases h
  | cons d ds ih =>
    rw [flatMap_cons]
    rcases mem_cons.1 h with rfl | h
    · have hline : before.length + 1 + d.docs.length + 1 - 1 =
          (before ++ [] :: d.docLines).length := by
        simp [Decl.docLines]
        omega
      have hsplit : before ++ (([] :: d.lines) ++ ds.flatMap fun d => [] :: d.lines) =
          (before ++ [] :: d.docLines) ++
            (d.head.line :: (d.bodyLines ++ ds.flatMap fun d => [] :: d.lines)) := by
        simp [Decl.lines]
      rw [hsplit, hline, getElem?_append_right (Nat.le_refl _)]
      simp
    · have hlength : (before ++ [] :: d.lines).length + 1 =
          before.length + 1 + d.lines.length + 1 := by
        rw [length_append, length_cons]
        omega
      have hlater := ih (before ++ [] :: d.lines) (by rw [hlength]; exact h)
      rwa [append_assoc] at hlater

theorem map_snd_numberedFrom (n : Nat) : (numberedFrom n ds).map Prod.snd = ds := by
  induction ds generalizing n with
  | nil => rfl
  | cons d ds ih => rw [numberedFrom, map_cons, ih]

end Docsmith.Go
