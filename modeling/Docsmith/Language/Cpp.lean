/-
C and C++: classes with the methods of their bodies, structures and functions. Comments are block
comments that start with a star or exclamation mark, and runs of line comments.
-/
import Docsmith.Comment
import Docsmith.Doc
import Docsmith.Path
import Docsmith.Text.Bracket
import Docsmith.Text.Letter

namespace Docsmith.Cpp

open Pattern

def blockPattern : Pattern :=
  lit "/*" ++ oneAmong "*!" ++ group 1 (chars (fun _ => true) 0 false) ++ lit "*/"

/-- `class Name : public A, B {`, possibly behind template parameters. -/
def classPattern : Pattern :=
  lineStart ++ opt (lit "template" ++ blanks ++ angles ++ blanks) ++ lit "class" ++ blanks1 ++
    many (word ++ blanks1) ++ group 1 word ++
    opt (blanks ++ lit ":" ++ blanks ++ keyword ["public", "protected", "private"] ++
      group 2 (run1 (except "\n\x7b"))) ++ blanks ++ lit "\x7b"

/-- `struct Name {`. -/
def structPattern : Pattern :=
  lineStart ++ opt (lit "typedef" ++ blanks1) ++ lit "struct" ++ blanks1 ++ group 1 word ++ blanks ++
    lit "\x7b"

/-- `Type name(params) const noexcept` and a character of `stops`. -/
def functionTail (stops : String) : Pattern :=
  group 1 (chars (fun c => Text.isWord c || among ":*&<>," c || Text.isBlank c) 1 false) ++
    blanks1 ++ group 2 word ++ blanks ++ parens 3 ++ opt (blanks ++ lit "const") ++
    opt (blanks ++ oneOf ["noexcept", "override", "final"]) ++ blanks ++ oneAmong stops

def functionPattern : Pattern :=
  lineStart ++
    modifiers ["static", "inline", "extern", "virtual", "explicit", "constexpr", "const",
      "unsigned", "signed"] ++ functionTail "\x7b;"

def methodPattern : Pattern :=
  lineStart ++ margin1 ++
    modifiers ["static", "virtual", "inline", "explicit", "constexpr", "const", "override",
      "final"] ++ functionTail "\x7b;="

def cleanBlock : List Char → String :=
  Comment.cleanBlock fun line =>
    Comment.startsTagTrimmed line || (Text.trim line).head? == some '\\'

def cleanLines : List Char → String := Comment.cleanLines ["/// ", "///", "//! ", "//!"]

/-- The comments of a text; where a block and lines belong to one position the lines count. -/
def comments (source : List Char) : Comments :=
  Comments.ofBlocks blockPattern cleanBlock source ++
    Comments.ofLines (commentLines margin ["///", "//!"]) cleanLines source

/-- A parameter: a type, a name and a default value; an ellipsis stands for any further ones. -/
def param? (raw : List Char) : Option Param :=
  let part := Text.trim raw
  if part.isEmpty then none
  else if part == "...".toList then some { name := "...", hint := "variadic" }
  else
    let (typed, default) := (Text.cutLast? '=' part).getD (part, [])
    let spaced := Text.subst ['&'] "& ".toList (Text.subst ['*'] "* ".toList typed)
    let default := String.ofList (Text.trim default)
    match (Text.words spaced).reverse with
    | [] => some { name := "", default := default }
    | [name] => some { name := String.ofList name, default := default }
    | name :: type =>
      some
        { name := String.ofList (Text.trimWhile (among "*& ") name)
          hint := " ".intercalate (type.reverse.map String.ofList)
          default := default }

def splitParams (raw : List Char) : List (List Char) := Text.splitTop "<(\x7b" ">)\x7d" raw

/-- The parameters in a list; `void` alone means none. -/
def params (raw : List Char) : List Param :=
  if Text.trim raw == "void".toList then [] else (splitParams raw).filterMap param?

def callable (source : List Char) (docs : Comments) (m : Match) : Callable :=
  { name := m.name 2
    params := params (m.group 3)
    result := String.ofList (Text.trim (m.group 1))
    doc := docs.textAt m.start.pos
    line := Text.lineAt source m.start.pos }

def reserved : List String := ["if", "for", "while", "switch", "return"]

def methods (excludePrivate : Bool) (body : List Char) : List Callable :=
  let docs := comments body
  let found := (methodPattern.findAll body).filter fun m =>
    !reserved.contains (m.name 2) && keepsName excludePrivate (m.group 2)
  found.map fun m => { callable body docs m with isMethod := true }

/-- What a file documents; a function whose name is in capitals is taken for a macro. -/
def document (excludePrivate : Bool) (path : Path) (source : List Char) : ModuleDoc :=
  let docs := comments source
  let found (p : Pattern) : List Match :=
    (p.findAll source).filter fun m => keepsName excludePrivate (m.group 1)
  let type (m : Match) : TypeDecl :=
    { name := m.name 1, doc := docs.textAt m.start.pos, line := Text.lineAt source m.start.pos }
  let classes := (found classPattern).map fun m =>
    { type m with
      bases := (((Text.cut ',' (m.group 2)).map Text.trim).filter (!·.isEmpty)).map String.ofList
      methods := methods excludePrivate (Text.braceBody m.stop.rest) }
  let structs := (found structPattern).map fun m => { type m with marks := ["struct"] }
  let functions := (functionPattern.findAll source).filter fun m =>
    keepsName excludePrivate (m.group 2) &&
      !(reserved ++ ["sizeof", "typedef"]).contains (m.name 2) && !Text.allUpper (m.group 2)
  { path := path.text
    name := path.stem
    functions := functions.map (callable source docs)
    types := classes ++ structs }

end Docsmith.Cpp
