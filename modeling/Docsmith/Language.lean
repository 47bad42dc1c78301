/-
The languages that are read, and the file extensions by which they are known.
-/
import Docsmith.FileTree
import Docsmith.Language.Cpp
import Docsmith.Language.CSharp
import Docsmith.Language.Go
import Docsmith.Language.Java
import Docsmith.Language.Kotlin
import Docsmith.Language.Python
import Docsmith.Language.Ruby
import Docsmith.Language.Rust
import Docsmith.Language.TypeScript

namespace Docsmith

inductive Language where
  | cpp
  | csharp
  | go
  | java
  | kotlin
  | python
  | ruby
  | rust
  | typescript
  deriving DecidableEq, Repr

namespace Language

def table : List (String × Language) :=
  [(".c", cpp), (".cc", cpp), (".cpp", cpp), (".cs", csharp), (".cxx", cpp), (".go", go),
    (".h", cpp), (".hpp", cpp), (".hxx", cpp), (".java", java), (".js", typescript),
    (".jsx", typescript), (".kt", kotlin), (".kts", kotlin), (".py", python), (".rb", ruby),
    (".rs", rust), (".ts", typescript), (".tsx", typescript)]

def allExtensions : List String := table.map Prod.fst

def ofExtension? (ext : String) : Option Language :=
  (table.find? fun e => e.1 == ext).map Prod.snd

variable [Machine]

def document (lang : Language) (excludePrivate : Bool) (path : Path) (source : List Char) :
    Except Fault (Option ModuleDoc) :=
  match lang with
  | cpp => .ok (some (Cpp.document excludePrivate path source))
  | csharp => (CSharp.document excludePrivate path source).map some
  | go => .ok (Go.document excludePrivate path source)
  | java => (Java.document excludePrivate path source).map some
  | kotlin => .ok (some (Kotlin.document excludePrivate path source))
  | python => Python.document excludePrivate path source
  | ruby => .ok (some (Ruby.document excludePrivate path source))
  | rust => .ok (some (Rust.document excludePrivate path source))
  | typescript => .ok (some (TypeScript.document excludePrivate path source))

/-- What a file documents. A file that is missing or is no text documents nothing, nor does a
Python file of another extension. -/
def documentFile (lang : Language) (excludePrivate : Bool) (tree : FileTree) (path : Path) :
    Except Fault (Option ModuleDoc) :=
  if lang = python ∧ path.suffix ≠ ".py" then .ok none
  else
    match tree.readText path with
    | .ok source => lang.document excludePrivate path source
    | .error _ => .ok none

end Language

end Docsmith
