/-
Go: structures with their methods, interfaces and functions, as far as they are exported.
-/
import Docsmith.Comment
import Docsmith.Doc
import Docsmith.Path
import Docsmith.Text.Letter

namespace Docsmith.Go

open Pattern

/-- `package name`. -/
def packagePattern : Pattern := lineStart ++ lit "package" ++ blanks1 ++ group 1 word

/-- Results in parentheses as group `n`, or a result up to a brace or line end as group `n + 1`. -/
def resultPattern (n : Nat) : Pattern :=
  opt (alt (blanks ++ parens n)
    (blanks1 ++ group (n + 1) (one (!Text.isBlank ·) ++ chars (except "\x7b\n") 0 false)))

/-- `func Name(params) result {`. -/
def functionPattern : Pattern :=
  lineStart ++ lit "func" ++ blanks1 ++ group 1 word ++ blanks ++ parens 2 ++ resultPattern 3 ++
    blanks ++ lit "\x7b"

/-- `func (receiver *Type) Name(params) result {`. -/
def methodPattern : Pattern :=
  lineStart ++ lit "func" ++ blanks1 ++
    lit "(" ++ group 1 word ++ blanks1 ++ opt (lit "*") ++ group 2 word ++ lit ")" ++ blanks1 ++
    group 3 word ++ blanks ++ parens 4 ++ resultPattern 5 ++ blanks ++ lit "\x7b"

/-- `type Name kind {`. -/
def typePattern (kind : String) : Pattern :=
  lineStart ++ lit "type" ++ blanks1 ++ group 1 word ++ blanks1 ++ lit kind ++ blanks ++ lit "\x7b"

def cleanComment : List Char → String := Comment.cleanLines ["// ", "//"]

def comments (source : List Char) : Comments :=
  Comments.ofLines (commentLines empty ["//"]) cleanComment source

def param? (part : List Char) : Option Param :=
  match Text.words part with
  | [] => none
  | name :: type =>
    some ⟨String.ofList name, " ".intercalate (type.map String.ofList), ""⟩

def params (raw : List Char) : List Param := (Text.cut ',' raw).filterMap param?

def isExported (name : List Char) : Bool := name.head?.any Text.isUpper

def result (m : Match) (n : Nat) : String :=
  let inParens := m.group n
  String.ofList (Text.trim (if inParens.isEmpty then m.group (n + 1) else inParens))

def methods (source : List Char) (type : List Char) : List Callable :=
  ((methodPattern.findAll source).filter fun m => m.group 2 == type && isExported (m.group 3)).map
    fun m =>
      { name := m.name 3
        params := params (m.group 4)
        result := result m 5
        doc := (comments source).textAt m.start.pos
        isMethod := true
        line := Text.lineAt source m.start.pos }

/-- What a file documents; test files document nothing. -/
def document (excludePrivate : Bool) (path : Path) (source : List Char) : Option ModuleDoc :=
  if "_test.go".toList.isSuffixOf path.name.toList then none
  else
    let package := ((packagePattern.find? source).map (·.name 1)).getD path.stem
    let docs := comments source
    let shown (m : Match) : Bool := keepsName excludePrivate (m.group 1) && isExported (m.group 1)
    let type (kind : String) (methods : List Char → List Callable) (m : Match) : TypeDecl :=
      { name := m.name 1
        doc := docs.textAt m.start.pos
        methods := methods (m.group 1)
        marks := [kind]
        line := Text.lineAt source m.start.pos }
    let types (kind : String) (methods : List Char → List Callable) : List TypeDecl :=
      (((typePattern kind).findAll source).filter shown).map (type kind methods)
    let function (m : Match) : Callable :=
      { name := m.name 1
        params := params (m.group 2)
        result := result m 3
        doc := docs.textAt m.start.pos
        line := Text.lineAt source m.start.pos }
    some
      { path := path.text
        name := if package = path.stem then package else package ++ "." ++ path.stem
        functions := ((functionPattern.findAll source).filter shown).map function
        types := types "struct" (methods source) ++ types "interface" fun _ => [] }

end Docsmith.Go
