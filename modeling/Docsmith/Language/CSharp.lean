/-
C#: classes and structures with the methods of their bodies, interfaces and enumerations.

Of a documentation comment the text between `<summary>` and `</summary>` is kept, and outside it
the lines that are no tags.
-/
import Docsmith.Comment
import Docsmith.Doc
import Docsmith.Fault
import Docsmith.Path
import Docsmith.Text.Bracket

namespace Docsmith.CSharp

open Pattern

/-- `namespace A.B`. -/
def namespacePattern : Pattern :=
  lineStart ++ lit "namespace" ++ blanks1 ++ group 1 (run1 fun c => Text.isWord c || c == '.')

/-- `kind Name<…> : A, B {` behind `modifiers`. -/
def typePattern (modifiers : Pattern) (kind : String) : Pattern :=
  lineStart ++ margin ++ modifiers ++ lit kind ++ blanks1 ++ group 1 word ++ opt angles ++
    opt (blanks ++ lit ":" ++ blanks ++ group 2 (run1 (except "\n\x7b"))) ++ blanks ++ lit "\x7b"

def classPattern : Pattern :=
  typePattern (modifiers ["public", "private", "protected", "internal", "static", "abstract",
    "sealed", "partial"]) "class"

def interfacePattern : Pattern :=
  typePattern (opt (keyword ["public", "private", "protected", "internal"])) "interface"

def structPattern : Pattern :=
  typePattern (modifiers ["public", "private", "protected", "internal", "readonly", "ref"]) "struct"

/-- `enum Name : type {`. -/
def enumPattern : Pattern :=
  lineStart ++ margin ++ opt (keyword ["public", "private", "protected", "internal"]) ++
    lit "enum" ++ blanks1 ++ group 1 word ++
    opt (blanks ++ lit ":" ++ blanks ++ group 2 word) ++ blanks ++ lit "\x7b"

/-- `Type Name<…>(params) where … {`. -/
def methodPattern : Pattern :=
  lineStart ++ margin1 ++
    modifiers ["public", "private", "protected", "internal", "static", "virtual", "override",
      "abstract", "async", "new", "sealed", "extern", "partial"] ++
    opt (angles ++ blanks1) ++
    group 1 (chars (fun c => Text.isWord c || among ".<>[],?" c || Text.isBlank c) 1 false) ++
    blanks1 ++ group 2 word ++ blanks ++ opt angles ++ blanks ++ parens 3 ++
    opt (blanks ++ lit "where" ++ blanks1 ++ run1 (except "\x7b;")) ++ blanks ++ oneAmong "\x7b;"

/-- A word that changes how a parameter is passed, at the start of a parameter. -/
def passingPattern : Pattern := textStart ++ keyword ["ref", "out", "in", "params", "this"]

def summaryTag : Pattern := lit "<" ++ opt (lit "/") ++ lit "summary>"

def summaryEnd : Pattern := lit "</summary>"

/-- The lines of a comment that are kept; `inside` a summary all are. -/
def keptLines (inside : Bool) : List (List Char) → List (List Char)
  | [] => []
  | raw :: lines =>
    let line := Text.dropLead ["/// ", "///"] (Text.trim raw)
    if Text.occurs "<summary>".toList line then
      let text := Text.trim (summaryTag.erase line)
      if text.isEmpty then keptLines true lines else text :: keptLines true lines
    else if Text.occurs "</summary>".toList line then
      let text := Text.trim (summaryEnd.erase line)
      if text.isEmpty then keptLines false lines else text :: keptLines false lines
    else if inside || line.head? != some '<' then line :: keptLines inside lines
    else keptLines inside lines

def cleanComment (raw : List Char) : String :=
  String.ofList (Text.trim (Text.joinWith "\n" (keptLines false (Text.cut '\n' (Text.trim raw)))))

def comments (source : List Char) : Comments :=
  Comments.ofLines (commentLines margin ["///"]) cleanComment source

/-- A parameter: a type, a name and a default value. A parameter with a default value and nothing
before it is a fault. -/
def param (raw : List Char) : Except Fault Param :=
  let part := Text.trim (passingPattern.erase raw)
  let (typed, default) := (Text.cutLast? '=' part).getD (part, [])
  match Text.lastWord? (Text.trim typed) with
  | none => .error .unnamedParam
  | some (type, name) =>
    .ok
      { name := String.ofList name
        hint := String.ofList type
        default := String.ofList (Text.trim default) }

def splitParams (raw : List Char) : List (List Char) := Text.splitTop "<(\x7b[" ">)\x7d]" raw

def params (raw : List Char) : Except Fault (List Param) :=
  (((splitParams raw).map Text.trim).filter (!·.isEmpty)).mapM param

def reserved : List String := ["if", "for", "while", "switch", "return", "get", "set"]

def methods (excludePrivate : Bool) (source : List Char) (start : Nat) :
    Except Fault (List Callable) :=
  let body := Text.braceBody (source.drop start)
  let docs := comments body
  let found := (methodPattern.findAll body).filter fun m =>
    !reserved.contains (m.name 2) && keepsName excludePrivate (m.group 2)
  found.mapM fun m => do
    let params ← params (m.group 3)
    let pos := start + m.start.pos
    pure
      { name := m.name 2
        params := params
        result := String.ofList (Text.trim (m.group 1))
        doc := docs.textAt m.start.pos
        isMethod := true
        isAsync := Text.occurs "async".toList ((source.take pos).drop (pos - 30))
        line := Text.lineAt body m.start.pos }

def document (excludePrivate : Bool) (path : Path) (source : List Char) : Except Fault ModuleDoc := do
  let package := ((namespacePattern.find? source).map (·.name 1)).getD ""
  let docs := comments source
  let found (p : Pattern) : List Match :=
    (p.findAll source).filter fun m => keepsName excludePrivate (m.group 1)
  let type (m : Match) : TypeDecl :=
    { name := m.name 1, doc := docs.textAt m.start.pos, line := Text.lineAt source m.start.pos }
  let bases (m : Match) : List String :=
    (((Text.cut ',' (m.group 2)).map Text.trim).filter (!·.isEmpty)).map String.ofList
  let classes ← (found classPattern).mapM fun m => do
    pure { type m with bases := bases m, methods := ← methods excludePrivate source m.stop.pos }
  let interfaces := (found interfacePattern).map fun m =>
    { type m with bases := bases m, marks := ["interface"] }
  let structs ← (found structPattern).mapM fun m => do
    pure { type m with marks := ["struct"], methods := ← methods excludePrivate source m.stop.pos }
  let enums := (found enumPattern).map fun m => { type m with marks := ["enum"] }
  pure
    { path := path.text
      name := if package.isEmpty then path.stem else package ++ "." ++ path.stem
      types := classes ++ interfaces ++ structs ++ enums }

end Docsmith.CSharp
