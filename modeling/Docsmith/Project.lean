/-
The source files of a project, and what they document together.
-/
import Docsmith.Language

namespace Docsmith

namespace Language

def extensions : Language → List String
  | cpp => [".c", ".cpp", ".cc", ".cxx", ".h", ".hpp", ".hxx"]
  | csharp => [".cs"]
  | go => [".go"]
  | java => [".java"]
  | kotlin => [".kt", ".kts"]
  | python => [".py"]
  | ruby => [".rb"]
  | rust => [".rs"]
  | typescript => [".ts", ".tsx", ".js", ".jsx"]

end Language

namespace Project

def defaultExcluded : List String := ["__pycache__", ".venv", "venv", "node_modules", ".git"]

def excluded (named : List String) : List String :=
  if named.isEmpty then defaultExcluded else named

def isExcluded (out : List String) (p : Path) : Bool := p.allParts.any fun part => out.contains part

/-- What lies below a folder with a name that ends in an extension, in order and without what is
left out. -/
def filesWith (tree : FileTree) (dir : Path) (out : List String) (ext : String) : List Path :=
  (tree.search dir fun name => ext.toList.isSuffixOf name.toList).filter fun p => !isExcluded out p

def sourceFiles (tree : FileTree) (dir : Path) (out : List String) : List Path :=
  Path.sort (Language.allExtensions.flatMap (filesWith tree dir out))

/-- The dotted name of a module from its place below the folder of the project: the file that
stands for its folder has the name of the folder. -/
def moduleName (dir file : Path) (plain : String) : String :=
  match file.relativeTo? dir with
  | none => plain
  | some rel =>
    let folders := rel.parts.dropLast
    let parts :=
      if rel.stem = "__init__" ∨ rel.stem = "index" then folders else folders ++ [rel.stem]
    if parts.isEmpty then plain else ".".intercalate parts

variable [Machine]

def moduleOf (lang : Language) (excludePrivate : Bool) (tree : FileTree) (dir file : Path) :
    Except Fault (Option ModuleDoc) := do
  match ← lang.documentFile excludePrivate tree file with
  | none => pure none
  | some m => pure (if m.isEmpty then none else some { m with name := moduleName dir file m.name })

def read (exts : List (String × Language)) (excludePrivate : Bool) (tree : FileTree) (dir : Path)
    (out : List String) : Except Fault ProjectDoc := do
  let groups ← exts.mapM fun (ext, lang) => do
    let ms ← (filesWith tree dir out ext).mapM (moduleOf lang excludePrivate tree dir)
    pure (ms.filterMap id)
  pure { title := dir.name, modules := groups.flatten }

def ofLanguage (lang : Language) : Bool → FileTree → Path → List String → Except Fault ProjectDoc :=
  read (lang.extensions.map fun ext => (ext, lang))

def ofAll : Bool → FileTree → Path → List String → Except Fault ProjectDoc := read Language.table

end Project

end Docsmith
