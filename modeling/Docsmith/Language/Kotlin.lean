/-
Kotlin: classes with the methods of their bodies, interfaces, objects and functions.
-/
import Docsmith.Comment
import Docsmith.Doc
import Docsmith.Path
import Docsmith.Text.Bracket

namespace Docsmith.Kotlin

open Pattern

/-- `package a.b`. -/
def packagePattern : Pattern :=
  lineStart ++ lit "package" ++ blanks1 ++ group 1 (run1 fun c => Text.isWord c || c == '.')

/-- `: A, B` up to a brace or line end, as group 2. -/
def basesPattern : Pattern :=
  opt (blanks ++ lit ":" ++ blanks ++ group 2 (run1 (except "\n\x7b")))

/-- `class Name<…>(…) : A, B {`. -/
def classPattern : Pattern :=
  lineStart ++
    modifiers ["public", "private", "protected", "internal", "abstract", "open", "sealed", "data",
      "inner", "enum"] ++
    lit "class" ++ blanks1 ++ group 1 word ++ opt angles ++
    opt (blanks ++ lit "(" ++ run0 (except ")") ++ lit ")") ++
    basesPattern ++ blanks ++ opt (lit "\x7b")

/-- `interface Name<…> : A, B {`. -/
def interfacePattern : Pattern :=
  lineStart ++ modifiers ["public", "private", "protected", "internal", "sealed", "fun"] ++
    lit "interface" ++ blanks1 ++ group 1 word ++ opt angles ++ basesPattern ++ blanks ++
    opt (lit "\x7b")

/-- `object Name : A {`. -/
def objectPattern : Pattern :=
  lineStart ++ modifiers ["public", "private", "protected", "internal"] ++
    opt (lit "companion" ++ blanks1) ++ lit "object" ++ blanks1 ++ group 1 word ++
    basesPattern ++ blanks ++ lit "\x7b"

/-- The part of a function from `fun` on; `receiver` stands before its name. -/
def functionTail (receiver : Pattern) : Pattern :=
  lit "fun" ++ blanks1 ++ opt (angles ++ blanks1) ++ receiver ++ group 1 word ++ blanks ++
    parens 2 ++ opt (blanks ++ lit ":" ++ blanks ++ group 3 (run1 (except "\n\x7b="))) ++ blanks ++
    opt (oneAmong "\x7b=")

def functionPattern : Pattern :=
  lineStart ++ margin ++
    modifiers ["public", "private", "protected", "internal", "override", "open", "abstract",
      "inline", "suspend", "operator", "infix", "tailrec", "external"] ++
    functionTail (opt (word ++ lit "."))

def methodPattern : Pattern :=
  lineStart ++ margin1 ++
    modifiers ["public", "private", "protected", "internal", "override", "open", "abstract",
      "inline", "suspend", "operator", "infix"] ++
    functionTail empty

def cleanComment : List Char → String := Comment.cleanBlock Comment.startsTagTrimmed

def comments (source : List Char) : Comments := Comments.ofBlocks starBlock cleanComment source

def param? (raw : List Char) : Option Param :=
  let part := Text.trim raw
  if part.isEmpty then none
  else
    let (typed, default) := (Text.cutLast? '=' part).getD (part, [])
    let (name, type) := (Text.cutFirst? ':' (Text.trim typed)).getD (Text.trim typed, [])
    some
      { name := String.ofList (Text.trim (Text.dropLead ["vararg "] (Text.trim name)))
        hint := String.ofList (Text.trim type)
        default := String.ofList (Text.trim default) }

def splitParams (raw : List Char) : List (List Char) := Text.splitTop "<(\x7b" ">)\x7d" raw

def params (raw : List Char) : List Param := (splitParams raw).filterMap param?

def callable (source : List Char) (docs : Comments) (m : Match) : Callable :=
  { name := m.name 1
    params := params (m.group 2)
    result := String.ofList (Text.trim (m.group 3))
    doc := docs.textAt m.start.pos
    line := Text.lineAt source m.start.pos }

def methods (excludePrivate : Bool) (body : List Char) : List Callable :=
  let docs := comments body
  ((methodPattern.findAll body).filter fun m => keepsName excludePrivate (m.group 1)).map fun m =>
    { callable body docs m with isMethod := true }

def document (excludePrivate : Bool) (path : Path) (source : List Char) : ModuleDoc :=
  let package := ((packagePattern.find? source).map (·.name 1)).getD ""
  let docs := comments source
  let found (p : Pattern) : List Match :=
    (p.findAll source).filter fun m => keepsName excludePrivate (m.group 1)
  let type (m : Match) : TypeDecl :=
    { name := m.name 1, doc := docs.textAt m.start.pos, line := Text.lineAt source m.start.pos }
  let bases (m : Match) : List String :=
    (((Text.cut ',' (m.group 2)).map Text.trim).filter (!·.isEmpty)).map String.ofList
  let classes := (found classPattern).map fun m =>
    { type m with bases := bases m, methods := methods excludePrivate (Text.braceBody m.stop.rest) }
  let interfaces := (found interfacePattern).map fun m =>
    { type m with bases := bases m, marks := ["interface"] }
  let objects := (found objectPattern).map fun m => { type m with marks := ["object"] }
  let functions := (found functionPattern).map fun m =>
    let before := (source.take m.start.pos).drop (m.start.pos - 30)
    { callable source docs m with isAsync := Text.occurs "suspend".toList before }
  { path := path.text
    name := if package.isEmpty then path.stem else package ++ "." ++ path.stem
    functions := functions
    types := classes ++ interfaces ++ objects }

end Docsmith.Kotlin
