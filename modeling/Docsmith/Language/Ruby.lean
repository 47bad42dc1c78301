/-
Ruby: modules, classes with the methods of their bodies, and every method of the file.

A body is read line by line: a line that opens a block and does not also end it goes one level
deeper, a line `end` one level up.
-/
import Docsmith.Comment
import Docsmith.Doc
import Docsmith.Path

namespace Docsmith.Ruby

open Pattern

/-- `class Name < Base`. -/
def classPattern : Pattern :=
  lineStart ++ margin ++ lit "class" ++ blanks1 ++ group 1 word ++
    opt (blanks ++ lit "<" ++ blanks ++ group 2 (one Text.isWord ++ run0 (except "\n")))

/-- `module Name`. -/
def modulePattern : Pattern := lineStart ++ margin ++ lit "module" ++ blanks1 ++ group 1 word

/-- `def name(params)`, possibly of the class itself. -/
def methodPattern : Pattern :=
  lineStart ++ margin ++ lit "def" ++ blanks1 ++ opt (lit "self.") ++
    group 1 (word ++ opt (oneAmong "?!=")) ++ opt (blanks ++ parens 2)

def openerPattern : Pattern :=
  lineStart ++ blanks ++
    oneOf ["class", "module", "def", "if", "unless", "while", "until", "for", "case", "begin",
      "do"] ++ edge Text.isWord

def cleanComment : List Char → String := Comment.cleanLines ["# ", "#"]

def comments (source : List Char) : Comments :=
  Comments.ofLines (commentLines margin ["#"]) cleanComment source

/-- A parameter: a name, with a colon for a keyword, and a default value. -/
def param? (raw : List Char) : Option Param :=
  let part := Text.trim raw
  if part.isEmpty then none
  else
    let (name, default) := (Text.cutFirst? '=' part).getD (part, [])
    some
      { name := String.ofList (Text.dropEndWhile (· == ':') (Text.trim name))
        default := String.ofList (Text.trim default) }

def params (raw : List Char) : List Param := (Text.cut ',' raw).filterMap param?

def endsBlock (line : List Char) : Bool :=
  line == "end".toList || "end ".toList.isPrefixOf line || "end;".toList.isPrefixOf line

/-- The lines up to the end of the block in which `depth` blocks are open. -/
def bodyLines (depth : Nat) : List (List Char) → List (List Char)
  | [] => []
  | line :: lines =>
    let bare := Text.trim line
    let opens := (openerPattern.matchAt (.ofText line)).isSome && !"end".toList.isSuffixOf bare
    let depth := if opens then depth + 1 else depth
    if endsBlock bare then
      if depth = 1 then [] else line :: bodyLines (depth - 1) lines
    else line :: bodyLines depth lines

def body (cs : List Char) : List Char :=
  Text.joinWith "\n" (bodyLines 1 (Text.cut '\n' cs).tail)

def methods (excludePrivate isMethod : Bool) (source : List Char) : List Callable :=
  let docs := comments source
  ((methodPattern.findAll source).filter fun m => keepsName excludePrivate (m.group 1)).map fun m =>
    { name := m.name 1
      params := params (m.group 2)
      doc := docs.textAt m.start.pos
      isMethod := isMethod
      line := Text.lineAt source m.start.pos }

def document (excludePrivate : Bool) (path : Path) (source : List Char) : ModuleDoc :=
  let docs := comments source
  let found (p : Pattern) : List Match :=
    (p.findAll source).filter fun m => keepsName excludePrivate (m.group 1)
  let type (m : Match) : TypeDecl :=
    { name := m.name 1, doc := docs.textAt m.start.pos, line := Text.lineAt source m.start.pos }
  let module (m : Match) : TypeDecl := { type m with marks := ["module"] }
  let class' (m : Match) : TypeDecl :=
    { type m with
      bases := ((m.group? 2).map fun base => String.ofList (Text.trim base)).toList
      methods := methods excludePrivate true (body m.stop.rest) }
  { path := path.text
    name := path.stem
    functions := methods excludePrivate false source
    types := (found modulePattern).map module ++ (found classPattern).map class' }

end Docsmith.Ruby
