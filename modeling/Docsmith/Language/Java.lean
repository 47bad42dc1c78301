/-
Java: classes with the methods of their bodies, interfaces and enumerations.
-/
import Docsmith.Comment
import Docsmith.Doc
import Docsmith.Fault
import Docsmith.Path
import Docsmith.Text.Bracket

namespace Docsmith.Java

open Pattern

def typeList (n : Nat) : Pattern :=
  group n (run1 fun c => Text.isWord c || among ".<>," c || Text.isBlank c)

/-- `class Name<…> extends Base implements A, B {`. -/
def classPattern : Pattern :=
  lineStart ++ modifiers ["public", "private", "protected", "abstract", "final", "static"] ++
    lit "class" ++ blanks1 ++ group 1 word ++ opt angles ++
    opt (blanks1 ++ lit "extends" ++ blanks1 ++ typeList 2) ++
    opt (blanks1 ++ lit "implements" ++ blanks1 ++ typeList 3) ++ blanks ++ lit "\x7b"

/-- `interface Name<…> extends A, B {`. -/
def interfacePattern : Pattern :=
  lineStart ++ opt (keyword ["public", "private", "protected"]) ++
    lit "interface" ++ blanks1 ++ group 1 word ++ opt angles ++
    opt (blanks1 ++ lit "extends" ++ blanks1 ++ typeList 2) ++ blanks ++ lit "\x7b"

/-- `enum Name implements A {`. -/
def enumPattern : Pattern :=
  lineStart ++ opt (keyword ["public", "private", "protected"]) ++
    lit "enum" ++ blanks1 ++ group 1 word ++
    opt (blanks1 ++ lit "implements" ++ blanks1 ++ typeList 2) ++ blanks ++ lit "\x7b"

/-- `Type name(params) throws E {`. -/
def methodPattern : Pattern :=
  lineStart ++ blanks1 ++
    modifiers ["public", "private", "protected", "static", "final", "abstract", "synchronized",
      "native", "default", "strictfp", "override"] ++
    opt (angles ++ blanks1) ++
    group 1 (run1 fun c => Text.isWord c || among ".<>,[]" c) ++ blanks1 ++
    group 2 word ++ blanks ++ parens 3 ++
    opt (blanks1 ++ lit "throws" ++ blanks1 ++
      run1 fun c => Text.isWord c || among ",." c || Text.isBlank c) ++
    blanks ++ oneAmong "\x7b;"

/-- `package a.b;`. -/
def packagePattern : Pattern :=
  lineStart ++ lit "package" ++ blanks1 ++ group 1 (run1 fun c => Text.isWord c || c == '.') ++
    blanks ++ lit ";"

def markPattern : Pattern := lit "@" ++ word ++ blanks

def cleanComment : List Char → String := Comment.cleanBlock Comment.startsTag

def comments (source : List Char) : Comments := Comments.ofBlocks starBlock cleanComment source

/-- A parameter: a type and a name, annotations aside; an ellipsis makes the type an array. A
parameter that has nothing but annotations is a fault. -/
def param (part : List Char) : Except Fault Param :=
  let bare := Text.subst "...".toList "[]".toList (Text.trim (markPattern.erase part))
  match (Text.words bare).reverse with
  | [] => .error .unnamedParam
  | name :: type =>
    .ok ⟨String.ofList name, " ".intercalate (type.reverse.map String.ofList), ""⟩

def params (raw : List Char) : Except Fault (List Param) :=
  (((Text.cut ',' raw).map Text.trim).filter (!·.isEmpty)).mapM param

def methods (excludePrivate : Bool) (body : List Char) : Except Fault (List Callable) :=
  let docs := comments body
  ((methodPattern.findAll body).filter fun m => keepsName excludePrivate (m.group 2)).mapM fun m => do
    let params ← params (m.group 3)
    pure
      { name := m.name 2
        params := params
        result := m.name 1
        doc := docs.textAt m.start.pos
        isMethod := true
        line := Text.lineAt body m.start.pos }

def document (excludePrivate : Bool) (path : Path) (source : List Char) : Except Fault ModuleDoc := do
  let package := ((packagePattern.find? source).map (·.name 1)).getD ""
  let docs := comments source
  let found (p : Pattern) : List Match :=
    (p.findAll source).filter fun m => keepsName excludePrivate (m.group 1)
  let type (m : Match) : TypeDecl :=
    { name := m.name 1, doc := docs.textAt m.start.pos, line := Text.lineAt source m.start.pos }
  let names (list : List Char) : List String :=
    (Text.cut ',' list).map fun name => String.ofList (Text.trim name)
  let classes ← (found classPattern).mapM fun m => do
    let methods ← methods excludePrivate (Text.braceBody m.stop.rest)
    let base := ((m.group? 2).map fun base => String.ofList (Text.trim base)).toList
    pure { type m with bases := base ++ ((m.group? 3).map names).getD [], methods := methods }
  let interfaces := (found interfacePattern).map fun m =>
    { type m with bases := (names (m.group 2)).filter (!·.isEmpty), marks := ["interface"] }
  let enums := (found enumPattern).map fun m => { type m with marks := ["enum"] }
  pure
    { path := path.text
      name := if package.isEmpty then path.stem else package ++ "." ++ path.stem
      types := classes ++ interfaces ++ enums }

end Docsmith.Java
