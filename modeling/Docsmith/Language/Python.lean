/-
Python source: functions and classes at the top level, and the methods of the classes, from the
syntax tree. Types and defaults are shown as the tree is printed.
-/
import Docsmith.Doc
import Docsmith.Path
import Docsmith.Pattern.Token
import Docsmith.Syntax.Docstring
import Docsmith.Syntax.Machine
import Docsmith.Syntax.Printer
import Docsmith.Text.Letter

namespace Docsmith.Language.Python

open Syntax

def shown (e : Expr) : String := e.print.toOption.getD ""

def shown? (e : Option Expr) : String := (e.map shown).getD ""

def param (stars : String) (p : Parameter) (default : Option Expr) : Param :=
  ⟨stars ++ p.name, shown? p.hint, shown? default⟩

/-- The tree lists the defaults of parameters that are given by place by themselves. They belong to
the last of these parameters. -/
def defaultAt (ps : List Parameter) (defaults : List Expr) (i : Nat) : Option Expr :=
  if ps.length ≤ i + defaults.length then defaults[i + defaults.length - ps.length]? else none

/-- Parameters that are given by name have defaults at the same places, some of them none. -/
def params (ps : Parameters) : List Param :=
  let placed := ps.positionalOnly ++ ps.positional
  let defaults := placed.filterMap Parameter.default
  let named := ps.keywordOnly.map Parameter.default
  placed.zipIdx.map (fun (p, i) => param "" p (defaultAt placed defaults i)) ++
    ps.variadic.toList.map (param "*" · none) ++
    ps.keywordOnly.zipIdx.map (fun (p, i) => param "" p named[i]?.join) ++
    ps.keywords.toList.map (param "**" · none)

def deprecated : List Char := "deprecated".toList

/-- Whether a text has the word as a word of its own, in letters of either case. -/
def saysDeprecated (doc : List Char) : Bool :=
  let edge := Pattern.edge Text.isWord
  ((edge ++ Pattern.lit "deprecated" ++ edge).find? (Text.foldCase doc)).isSome

/-- Whether a decorator or the documentation calls something deprecated. -/
def isDeprecated (marks : List String) (doc : String) : Bool :=
  marks.any (fun m => Text.occurs deprecated (Text.foldCase m.toList)) || saysDeprecated doc.toList

def callable? (isMethod : Bool) (s : Stmt) : Option Callable :=
  match s.form with
  | .function isAsync name ps result decorators body =>
    let marks := decorators.map shown
    let doc := docOf body
    some
      { name, params := params ps, result := shown? result, doc, marks, isMethod, isAsync
        isDeprecated := isDeprecated marks doc
        line := s.line }
  | _ => none

def typeDecl? (excludePrivate : Bool) (s : Stmt) : Option TypeDecl :=
  match s.form with
  | .type name bases _ decorators body =>
    let marks := decorators.map shown
    let doc := docOf body
    let methods := (body.filterMap (callable? true)).filter fun f =>
      keepsName excludePrivate f.name.toList
    some
      { name, bases := bases.map shown, doc, methods, marks
        isDeprecated := isDeprecated marks doc
        line := s.line }
  | _ => none

def document [Machine] (excludePrivate : Bool) (path : Path) (source : List Char) :
    Except Fault (Option ModuleDoc) := do
  let body? ← readTree source
  pure (body?.map fun body =>
    { path := path.text
      name := path.stem
      doc := docOf body
      functions := (body.filterMap (callable? false)).filter fun f =>
        keepsName excludePrivate f.name.toList
      types := (body.filterMap (typeDecl? excludePrivate)).filter fun t =>
        keepsName excludePrivate t.name.toList })

end Docsmith.Language.Python
