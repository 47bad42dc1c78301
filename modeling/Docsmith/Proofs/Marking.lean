/-
Which functions are marked as asynchronous.

In TypeScript, Rust, C# and Kotlin a function is marked if the word for it stands shortly before the
place where its match starts (`SaysBefore`). The match starts at the start of a line and takes the
modifiers of the declaration in, so that these are never looked at: a declaration is marked or not by
what precedes it, whatever it says itself.
-/
import Docsmith.Proofs.Findings

namespace Docsmith

open List

namespace Language

def asyncWord : Language → String
  | kotlin => "suspend"
  | _ => "async"

/-- How many characters before a declaration are looked at. -/
def lookback : Language → Nat
  | typescript => 20
  | _ => 30

/-- A text ends in the word with no more than a few characters behind it. -/
def SaysBefore (lang : Language) (before : List Char) : Prop :=
  ∃ x y, before = x ++ (lang.asyncWord.toList ++ y) ∧
    (lang.asyncWord.toList ++ y).length ≤ lang.lookback

theorem saysBefore_iff (lang : Language) {source : List Char} {pos : Nat}
    (hpos : pos ≤ source.length) :
    Text.occurs lang.asyncWord.toList ((source.take pos).drop (pos - lang.lookback)) = true ↔
      lang.SaysBefore (source.take pos) := by
  have hlen : (source.take pos).length = pos := length_take_of_le hpos
  generalize source.take pos = before at hlen ⊢
  rw [Text.occurs_iff]
  constructor
  · rintro ⟨x, y, hxy⟩
    refine ⟨before.take (pos - lang.lookback) ++ x, y, ?_, ?_⟩
    · rw [append_assoc, ← append_assoc x, hxy, take_append_drop]
    · have := congrArg List.length hxy
      simp only [length_append, length_drop] at this ⊢
      omega
  · rintro ⟨x, y, rfl, hshort⟩
    rw [length_append] at hlen
    rw [drop_append_of_le_length (by omega), ← append_assoc]
    exact infix_append _ _ _

end Language

open Language

variable {ep : Bool} {path : Path} {source : List Char}

/-- The functions of a file are those that `p` finds, each at the start of a line and marked by what
stands before that line, and others that are not marked. -/
def Language.MarksFunctions (lang : Language) (ep : Bool) (source : List Char) (p : Pattern)
    (fs : List Callable) : Prop :=
  ∃ (declared : Match → Callable) (others : List Callable),
    fs = ((p.findAll source).filter fun m => keepsName ep (m.group 1)).map declared ++ others ∧
    (∀ f ∈ others, f.isAsync = false) ∧
    ∀ m ∈ p.findAll source, (declared m).name = m.name 1 ∧
      (declared m).line = Text.lineAt source m.start.pos ∧
      (source.take m.start.pos).getLast?.all (· == '\n') = true ∧
      ((declared m).isAsync = true ↔ lang.SaysBefore (source.take m.start.pos))

theorem Language.marks_of_mem (lang : Language) {p : Pattern} (hp : p ∈ lang.patterns .function)
    {m : Match} (hm : m ∈ p.findAll source) :
    (source.take m.start.pos).getLast?.all (· == '\n') = true ∧
      (Text.occurs lang.asyncWord.toList
        ((source.take m.start.pos).drop (m.start.pos - lang.lookback)) = true ↔
          lang.SaysBefore (source.take m.start.pos)) :=
  ⟨(documented_of_mem_file hm 1 hp).toSited.startsLine,
    saysBefore_iff lang (pos_le_of_mem_findAll hm)⟩

theorem TypeScript.marksFunctions : typescript.MarksFunctions ep source functionPattern
    (document ep path source).functions := by
  refine ⟨_, _, rfl, ?_, fun m hm => ⟨rfl, rfl, marks_of_mem .typescript (by simp) hm⟩⟩
  simp only [mem_map]
  rintro _ ⟨m, -, rfl⟩
  rfl

theorem Rust.marksFunctions : rust.MarksFunctions ep source functionPattern
    (document ep path source).functions :=
  ⟨_, [], (append_nil _).symm, nofun,
    fun _ hm => ⟨rfl, rfl, marks_of_mem .rust (by simp) hm⟩⟩

theorem Kotlin.marksFunctions : kotlin.MarksFunctions ep source functionPattern
    (document ep path source).functions :=
  ⟨_, [], (append_nil _).symm, nofun,
    fun _ hm => ⟨rfl, rfl, marks_of_mem .kotlin (by simp) hm⟩⟩

theorem CSharp.marks_of_mem_methods {p : Pattern} {m : Match} (hm : m ∈ p.findAll source)
    {fs : List Callable} (h : methods ep source m.stop.pos = .ok fs) {f : Callable} (hf : f ∈ fs) :
    ∃ s, csharp.Sited .method source f.name m.stop.pos f.line s ∧
      (f.isAsync = true ↔ csharp.SaysBefore (source.take s.pos)) := by
  obtain ⟨m', hm', hf⟩ := Except.mem_of_mapM h hf
  obtain ⟨ps, -, hf⟩ := Except.bind_ok_iff.1 hf
  obtain rfl := Except.pure_ok_iff.1 hf
  have hfound := (mem_filter.1 hm').1
  refine ⟨_, (documented_of_mem (List.take_prefix _ _) hfound 2 (by simp) (by simp)).toSited,
    saysBefore_iff .csharp ?_⟩
  have hbody := (pos_le_of_mem_findAll hfound).trans (List.take_prefix _ _).length_le
  rw [length_drop] at hbody
  obtain ⟨b, t, u, rfl, -, -, hstop⟩ := Pattern.reads_of_mem_findAll hm
  have : m.stop.pos = (b ++ t).length := by rw [hstop]; rfl
  simp only [length_append] at this hbody ⊢
  omega

/-- Each method of a type is found behind the start of a type of that name, and marked by what stands
before it. -/
def CSharp.MarksMethods (source : List Char) (types : List TypeDecl) : Prop :=
  ∀ t ∈ types, ∀ f ∈ t.methods, ∃ origin ∈ csharp.origins source t.name, ∃ s,
    csharp.Sited .method source f.name origin f.line s ∧
      (f.isAsync = true ↔ csharp.SaysBefore (source.take s.pos))

theorem CSharp.marksMethods {d : ModuleDoc} (h : document ep path source = .ok d) :
    MarksMethods source d.types := by
  obtain ⟨classes, hclasses, h⟩ := Except.bind_ok_iff.1 h
  obtain ⟨structs, hstructs, hd⟩ := Except.bind_ok_iff.1 h
  obtain rfl := Except.pure_ok_iff.1 hd
  simp only [MarksMethods, mem_append, mem_map]
  rintro t (((ht | ⟨m, -, rfl⟩) | ht) | ⟨m, -, rfl⟩) f hf
  · obtain ⟨m, hm, fs, hfs, rfl⟩ := mem_types_of_mapM hclasses ht
    exact ⟨_, mem_append_left _ (mem_behind hm), marks_of_mem_methods hm hfs hf⟩
  · cases hf
  · obtain ⟨m, hm, fs, hfs, rfl⟩ := mem_types_of_mapM hstructs ht
    exact ⟨_, mem_append_right _ (mem_behind hm), marks_of_mem_methods hm hfs hf⟩
  · cases hf

/-- **Marks of functions.** A declared function, in C# a method, is marked as asynchronous exactly if
the word stands in the last characters before its match. A match starts a line, so that what the
declaration says itself has no part in it. -/
theorem document_marks (ep : Bool) (path : Path) (source : List Char) :
    typescript.MarksFunctions ep source TypeScript.functionPattern
      (TypeScript.document ep path source).functions ∧
    rust.MarksFunctions ep source Rust.functionPattern
      (Rust.document ep path source).functions ∧
    kotlin.MarksFunctions ep source Kotlin.functionPattern
      (Kotlin.document ep path source).functions ∧
    ∀ d, CSharp.document ep path source = .ok d → CSharp.MarksMethods source d.types :=
  ⟨TypeScript.marksFunctions, Rust.marksFunctions, Kotlin.marksFunctions,
    fun _ h => CSharp.marksMethods h⟩

/-- A method that says it is asynchronous, and one behind a comment that has the word. -/
def besides : List Char :=
  "class A \x7b\n    async void f() \x7b\x7d\n    // async\n    void g() \x7b\x7d\n\x7d\n".toList

theorem document_marks_besides : ∃ d, CSharp.document false (.ofString "a.cs") besides = .ok d ∧
    d.types.map (fun t => t.methods.map fun f => (f.name, f.isAsync)) =
      [[("f", false), ("g", true)]] ∧
    CSharp.MarksMethods besides d.types ∧
    (TypeScript.document false (.ofString "a.ts")
      "async function f() \x7b\x7d\n// async\nfunction g() \x7b\x7d\n".toList).functions.map
        (fun f => (f.name, f.isAsync)) = [("f", false), ("g", true)] := by
  have hfacts : (CSharp.document false (.ofString "a.cs") besides).toOption.map (fun d =>
        d.types.map fun t => t.methods.map fun f => (f.name, f.isAsync)) =
        some [[("f", false), ("g", true)]] ∧
      (TypeScript.document false (.ofString "a.ts")
        "async function f() \x7b\x7d\n// async\nfunction g() \x7b\x7d\n".toList).functions.map
          (fun f => (f.name, f.isAsync)) = [("f", false), ("g", true)] := by decide +kernel
  cases h : CSharp.document false (.ofString "a.cs") besides with
  | error e => simp [h, Except.toOption] at hfacts
  | ok d =>
    rw [h] at hfacts
    exact ⟨d, rfl, Option.some_inj.1 hfacts.1, (document_marks false _ _).2.2.2 d h, hfacts.2⟩

end Docsmith
