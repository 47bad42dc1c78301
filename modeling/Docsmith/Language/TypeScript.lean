/-
TypeScript and JavaScript: functions, constants that hold arrow functions, classes with the methods
of their bodies, and interfaces. A comment near the start of a file is the module's own.
-/
import Docsmith.Comment
import Docsmith.Doc
import Docsmith.Path
import Docsmith.Text.Bracket

namespace Docsmith.TypeScript

open Pattern

/-- `: Type` up to a blank or a character of `stops`, as group `n`. -/
def resultPattern (n : Nat) (stops : String) : Pattern :=
  opt (blanks ++ lit ":" ++ blanks ++ group n (run1 fun c => !Text.isBlank c && except stops c))

/-- `function name<…>(params): Type {`. -/
def functionPattern : Pattern :=
  lineStart ++ opt (lit "export" ++ blanks1) ++ opt (lit "async" ++ blanks1) ++ lit "function" ++
    blanks1 ++ group 1 word ++ blanks ++ opt angles ++ blanks ++ parens 2 ++ resultPattern 3 "\x7b" ++
    blanks ++ lit "\x7b"

/-- `const name: … = (params): Type =>`. -/
def arrowPattern : Pattern :=
  lineStart ++ opt (lit "export" ++ blanks1) ++ keyword ["const", "let", "var"] ++ group 1 word ++
    blanks ++ opt (lit ":" ++ blanks ++ chars (except "=") 1 false) ++ blanks ++ lit "=" ++ blanks ++
    opt (lit "async" ++ blanks1) ++ parens 2 ++ resultPattern 3 "=>\x7b" ++ blanks ++ lit "=>" ++ blanks

def typeList (n : Nat) : Pattern :=
  group n (run1 fun c => Text.isWord c || among ".<>," c || Text.isBlank c)

/-- `class Name<…> extends Base implements A, B {`. -/
def classPattern : Pattern :=
  lineStart ++ opt (lit "export" ++ blanks1) ++ opt (lit "abstract" ++ blanks1) ++ lit "class" ++
    blanks1 ++ group 1 word ++ opt angles ++
    opt (blanks1 ++ lit "extends" ++ blanks1 ++ typeList 2) ++
    opt (blanks1 ++ lit "implements" ++ blanks1 ++ typeList 3) ++ blanks ++ lit "\x7b"

/-- `interface Name<…> extends A, B {`. -/
def interfacePattern : Pattern :=
  lineStart ++ opt (lit "export" ++ blanks1) ++ lit "interface" ++ blanks1 ++ group 1 word ++
    opt angles ++ opt (blanks1 ++ lit "extends" ++ blanks1 ++ typeList 2) ++ blanks ++ lit "\x7b"

/-- `name<…>(params): Type {` in a body. -/
def methodPattern : Pattern :=
  lineStart ++ blanks1 ++
    modifiers ["public", "private", "protected", "static", "async", "readonly", "override",
      "abstract"] ++
    group 1 word ++ blanks ++ opt angles ++ blanks ++ parens 2 ++ resultPattern 3 "\x7b;" ++ blanks ++
    oneAmong "\x7b;"

def cleanComment : List Char → String := Comment.cleanBlock Comment.startsTag

def comments (source : List Char) : Comments := Comments.ofBlocks starBlock cleanComment source

def splitParams (raw : List Char) : List (List Char) := Text.splitTop "<\x7b([" ">\x7d)]" raw

/-- A parameter: a name, possibly marked as optional, a type and a default value. A parameter taken
apart in place has its pattern for a name. -/
def param? (raw : List Char) : Option Param :=
  let part := Text.trim raw
  let head := ((Text.cutFirst? ':' part).map Prod.fst).getD part
  if part.isEmpty then none
  else if part.head? == some '{' || part.head? == some '[' then
    some { name := String.ofList (Text.trim head), hint := "object" }
  else
    let clean := part.filter (· != '?')
    let (typed, default) := (Text.cutFirst? '=' clean).getD (clean, [])
    let (name, type) := (Text.cutFirst? ':' typed).getD (typed, [])
    let hint := Text.trim type
    let undefined := "| undefined".toList
    let mayMiss := head.contains '?' && !hint.isEmpty && !undefined.isSuffixOf hint
    some
      { name := String.ofList (Text.trim name)
        hint := String.ofList (if mayMiss then hint ++ ' ' :: undefined else hint)
        default := String.ofList (Text.trim default) }

def params (raw : List Char) : List Param :=
  if (Text.trim raw).isEmpty then [] else (splitParams raw).filterMap param?

def callable (source : List Char) (docs : Comments) (m : Match) : Callable :=
  { name := m.name 1
    params := params (m.group 2)
    result := m.name 3
    doc := docs.textAt m.start.pos
    line := Text.lineAt source m.start.pos }

def reserved : List String := ["if", "for", "while", "switch", "return"]

def methods (excludePrivate : Bool) (body : List Char) : List Callable :=
  let docs := comments body
  let found := (methodPattern.findAll body).filter fun m =>
    !reserved.contains (m.name 1) && keepsName excludePrivate (m.group 1)
  found.map fun m => { callable body docs m with isMethod := true }

/-- The comment of the module itself: the first one, if it starts within fifty characters. -/
def moduleComment (source : List Char) : String :=
  match starBlock.find? source with
  | some m => if m.start.pos < 50 then cleanComment (m.group 1) else ""
  | none => ""

def document (excludePrivate : Bool) (path : Path) (source : List Char) : ModuleDoc :=
  let docs := comments source
  let found (p : Pattern) : List Match :=
    (p.findAll source).filter fun m => keepsName excludePrivate (m.group 1)
  let type (m : Match) : TypeDecl :=
    { name := m.name 1
      bases := (((Text.cut ',' (m.group 2)).map Text.trim).filter (!·.isEmpty)).map String.ofList
      doc := docs.textAt m.start.pos
      line := Text.lineAt source m.start.pos }
  let functions := (found functionPattern).map fun m =>
    let before := (source.take m.start.pos).drop (m.start.pos - 20)
    { callable source docs m with isAsync := Text.occurs "async".toList before }
  let arrows := (found arrowPattern).map (callable source docs)
  let classes := (found classPattern).map fun m =>
    { type m with methods := methods excludePrivate (Text.braceBody m.stop.rest) }
  let interfaces := (found interfacePattern).map fun m => { type m with marks := ["interface"] }
  { path := path.text
    name := path.stem
    doc := moduleComment source
    functions := functions ++ arrows
    types := classes ++ interfaces }

end Docsmith.TypeScript
