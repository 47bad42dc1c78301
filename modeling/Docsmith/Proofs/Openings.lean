/-
How the matches of declarations start, in each language and for each kind of declaration: at the
start of a line, with something that is no blank in them, and not with what a comment starts with.
-/
import Docsmith.Language
import Docsmith.Proofs.Reading

namespace Docsmith

/-- What a declaration is documented as. -/
inductive Kind where
  | function
  | type
  | method

namespace Language

/-- The patterns by which declarations are found; Python's are found in the syntax tree. -/
@[simp] def patterns : Language → Kind → List Pattern
  | cpp, .function => [Cpp.functionPattern]
  | cpp, .type => [Cpp.classPattern, Cpp.structPattern]
  | cpp, .method => [Cpp.methodPattern]
  | csharp, .type =>
    [CSharp.classPattern, CSharp.interfacePattern, CSharp.structPattern, CSharp.enumPattern]
  | csharp, .method => [CSharp.methodPattern]
  | go, .function => [Go.functionPattern]
  | go, .type => [Go.typePattern "struct", Go.typePattern "interface"]
  | go, .method => [Go.methodPattern]
  | java, .type => [Java.classPattern, Java.interfacePattern, Java.enumPattern]
  | java, .method => [Java.methodPattern]
  | kotlin, .function => [Kotlin.functionPattern]
  | kotlin, .type => [Kotlin.classPattern, Kotlin.interfacePattern, Kotlin.objectPattern]
  | kotlin, .method => [Kotlin.methodPattern]
  | ruby, .function | ruby, .method => [Ruby.methodPattern]
  | ruby, .type => [Ruby.modulePattern, Ruby.classPattern]
  | rust, .function | rust, .method => [Rust.functionPattern]
  | rust, .type => [Rust.structPattern, Rust.enumPattern, Rust.traitPattern]
  | typescript, .function => [TypeScript.functionPattern, TypeScript.arrowPattern]
  | typescript, .type => [TypeScript.classPattern, TypeScript.interfacePattern]
  | typescript, .method => [TypeScript.methodPattern]
  | csharp, .function | java, .function | python, _ => []

/-- Whether a declaration starts on the line on which its match starts. -/
def isTight : Language → Kind → Bool
  | cpp, .function => false
  | cpp, .method | csharp, .method | java, .method | typescript, .method => false
  | _, _ => true

/-- Whether the match of a declaration starts with no blank. -/
def isFlush : Language → Kind → Bool
  | java, .function | java, .type => true
  | kotlin, .type => true
  | typescript, .function | typescript, .type => true
  | _, _ => false

/-- What the match of a declaration has neither among its first blanks nor right behind them. -/
def unopened (lang : Language) (kind : Kind) : List Char :=
  '/' :: '#' ::
    if lang.isFlush kind then Pattern.blankChars else if lang.isTight kind then ['\n'] else []

end Language

variable {lang : Language} {kind : Kind} {p : Pattern}

theorem opens_patterns (hp : p ∈ lang.patterns kind) :
    p.takesBlank = false ∧ p.opensWith (lang.unopened kind) = false := by
  have hall : ∀ p ∈ lang.patterns kind,
      p.takesBlank = false ∧ p.opensWith (lang.unopened kind) = false := by
    cases lang <;> cases kind <;> decide +kernel
  exact hall p hp

theorem feed_mem_unopened (h : lang.isTight kind = true) : '\n' ∈ lang.unopened kind := by
  refine List.mem_cons_of_mem _ (List.mem_cons_of_mem _ ?_)
  by_cases hflush : lang.isFlush kind = true
  · rw [if_pos hflush]
    exact Pattern.mem_blankChars rfl
  · rw [if_neg hflush, if_pos h]
    exact List.mem_singleton_self _

theorem startsLine_patterns (hp : p ∈ lang.patterns kind) : p.startsLine = true := by
  have hall : ∀ p ∈ lang.patterns kind, p.startsLine = true := by
    cases lang <;> cases kind <;> decide
  exact hall p hp

end Docsmith
