/-
Rust: structures with the methods of their `impl` blocks, enumerations, traits and functions. Inner
comments near the start of a file are the module's own.
-/
import Docsmith.Comment
import Docsmith.Doc
import Docsmith.Path
import Docsmith.Text.Bracket

namespace Docsmith.Rust

open Pattern

/-- `pub`, possibly with a scope. -/
def visibility : Pattern :=
  opt (lit "pub" ++ opt (lit "(" ++ run0 (except ")") ++ lit ")") ++ blanks1)

/-- `fn name<…>(params) -> Type where … {`. -/
def functionPattern : Pattern :=
  lineStart ++ visibility ++ opt (lit "async" ++ blanks1) ++ opt (lit "unsafe" ++ blanks1) ++
    opt (lit "extern" ++ blanks1 ++ lit "\"" ++ run0 (except "\"") ++ lit "\"" ++ blanks1) ++
    lit "fn" ++ blanks1 ++ group 1 word ++ opt angles ++ blanks ++ parens 2 ++
    opt (blanks ++ lit "->" ++ blanks ++ group 3 (run1 (except "\n\x7b;"))) ++ blanks ++
    opt (lit "where" ++ run0 (except "\x7b")) ++ oneAmong "\x7b;"

/-- `struct Name<…> {` or `struct Name<…>(`. -/
def structPattern : Pattern :=
  lineStart ++ visibility ++ lit "struct" ++ blanks1 ++ group 1 word ++ opt angles ++ blanks ++
    oneAmong "(\x7b"

/-- `enum Name<…> {`. -/
def enumPattern : Pattern :=
  lineStart ++ visibility ++ lit "enum" ++ blanks1 ++ group 1 word ++ opt angles ++ blanks ++ lit "\x7b"

/-- `trait Name<…>: A + B {`. -/
def traitPattern : Pattern :=
  lineStart ++ visibility ++ opt (lit "unsafe" ++ blanks1) ++ lit "trait" ++ blanks1 ++
    group 1 word ++ opt angles ++ opt (blanks ++ lit ":" ++ blanks ++ run1 (except "\x7b")) ++ blanks ++
    lit "\x7b"

/-- `impl<…> Trait for Name<…> {`. -/
def implPattern : Pattern :=
  lineStart ++ opt (lit "unsafe" ++ blanks1) ++ lit "impl" ++ opt angles ++ blanks1 ++
    opt (group 1 word ++ blanks1 ++ lit "for" ++ blanks1) ++ group 2 word ++ opt angles ++ blanks ++
    lit "\x7b"

def cleanComment (inner : Bool) : List Char → String :=
  Comment.cleanLines (if inner then ["//! ", "//!"] else ["/// ", "///"])

def comments (source : List Char) : Comments :=
  Comments.ofLines (commentLines margin ["///"]) (cleanComment false) source

/-- A parameter: a name and a type. A receiver is none. -/
def param? (raw : List Char) : Option Param :=
  let part := Text.trim raw
  if part.isEmpty || ["self", "&self", "&mut self"].contains (String.ofList part) then none
  else
    match Text.cutFirst? ':' part with
    | some (name, type) =>
      some
        { name := String.ofList (Text.trim ((Text.trim name).dropWhile (among "mut ")))
          hint := String.ofList (Text.trim type) }
    | none => some { name := String.ofList part }

def splitParams (raw : List Char) : List (List Char) := Text.splitTop "<(\x7b" ">)\x7d" raw

def params (raw : List Char) : List Param := (splitParams raw).filterMap param?

def callable (docs : Comments) (m : Match) : Callable :=
  { name := m.name 1
    params := params (m.group 2)
    result := String.ofList (Text.trim (m.group 3))
    doc := docs.textAt m.start.pos }

def methodsAt (excludePrivate : Bool) (source : List Char) (start : Nat) : List Callable :=
  let body := Text.braceBody (source.drop start)
  let docs := comments body
  ((functionPattern.findAll body).filter fun m => keepsName excludePrivate (m.group 1)).map fun m =>
    { callable docs m with isMethod := true, line := Text.lineAt source (start + m.start.pos) }

def methods (excludePrivate : Bool) (source type : List Char) : List Callable :=
  ((implPattern.findAll source).filter fun m => m.group 2 == type).flatMap fun m =>
    methodsAt excludePrivate source m.stop.pos

/-- The comment of the module itself: the first inner one, if it starts within a hundred
characters. -/
def moduleComment (source : List Char) : String :=
  match (commentLines margin ["//!"]).find? source with
  | some m => if m.start.pos < 100 then cleanComment true (m.group 1) else ""
  | none => ""

def document (excludePrivate : Bool) (path : Path) (source : List Char) : ModuleDoc :=
  let docs := comments source
  let found (p : Pattern) : List Match :=
    (p.findAll source).filter fun m => keepsName excludePrivate (m.group 1)
  let type (kind : String) (m : Match) : TypeDecl :=
    { name := m.name 1
      doc := docs.textAt m.start.pos
      marks := [kind]
      line := Text.lineAt source m.start.pos }
  let structs := (found structPattern).map fun m =>
    { type "struct" m with methods := methods excludePrivate source (m.group 1) }
  let functions := (found functionPattern).map fun m =>
    let before := (source.take m.start.pos).drop (m.start.pos - 30)
    { callable docs m with
      isAsync := Text.occurs "async".toList before
      line := Text.lineAt source m.start.pos }
  { path := path.text
    name := path.stem
    doc := moduleComment source
    functions := functions
    types := structs ++ (found enumPattern).map (type "enum") ++
      (found traitPattern).map (type "trait") }

end Docsmith.Rust
