/-
What the documentation of a project consists of: parameters, functions and methods, types with
their methods, modules and the project. Every field is the text that a page shows.
-/
namespace Docsmith

structure Param where
  name : String
  hint : String := ""
  default : String := ""
  deriving DecidableEq, Repr

namespace Param

def signature (p : Param) : String :=
  p.name ++ (if p.hint.isEmpty then "" else ": " ++ p.hint) ++
    (if p.default.isEmpty then "" else " = " ++ p.default)

end Param

structure Callable where
  name : String
  params : List Param := []
  result : String := ""
  doc : String := ""
  marks : List String := []
  isMethod : Bool := false
  isAsync : Bool := false
  isDeprecated : Bool := false
  line : Int := 0
  deriving DecidableEq, Repr

namespace Callable

def signature (f : Callable) : String :=
  (if f.isAsync then "async def " else "def ") ++ f.name ++ "(" ++
    ", ".intercalate (f.params.map Param.signature) ++ ")" ++
    (if f.result.isEmpty then "" else " -> " ++ f.result)

end Callable

structure TypeDecl where
  name : String
  bases : List String := []
  doc : String := ""
  methods : List Callable := []
  marks : List String := []
  isDeprecated : Bool := false
  line : Int := 0
  deriving DecidableEq, Repr

namespace TypeDecl

def signature (t : TypeDecl) : String :=
  "class " ++ t.name ++ (if t.bases.isEmpty then "" else "(" ++ ", ".intercalate t.bases ++ ")")

end TypeDecl

structure ModuleDoc where
  path : String
  name : String
  doc : String := ""
  functions : List Callable := []
  types : List TypeDecl := []
  deriving DecidableEq, Repr

namespace ModuleDoc

def isEmpty (m : ModuleDoc) : Bool := m.functions.isEmpty && m.types.isEmpty && m.doc.isEmpty

end ModuleDoc

structure ProjectDoc where
  title : String := "Project Documentation"
  modules : List ModuleDoc := []
  deriving DecidableEq, Repr

namespace ProjectDoc

def moduleCount (p : ProjectDoc) : Nat := p.modules.length

def functionCount (p : ProjectDoc) : Nat := (p.modules.map (·.functions.length)).foldr (· + ·) 0

def typeCount (p : ProjectDoc) : Nat := (p.modules.map (·.types.length)).foldr (· + ·) 0

end ProjectDoc

/-- Whether a name is shown: with `excludePrivate`, one leading underscore hides a name and two do
not. -/
def keepsName (excludePrivate : Bool) (name : List Char) : Bool :=
  match name with
  | '_' :: '_' :: _ => true
  | '_' :: _ => !excludePrivate
  | _ => true

end Docsmith
