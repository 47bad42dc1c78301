/-
The functions and classes of a Python file at any depth, level by level: first those in the file
itself, then those one statement further in, and so on.
-/
import Docsmith.Syntax.Docstring
import Docsmith.Syntax.StatementPrinter

namespace Docsmith.Assistant

open Syntax

def joinLevels : List (List Stmt) → List (List Stmt) → List (List Stmt)
  | [], ys => ys
  | xs, [] => xs
  | x :: xs, y :: ys => (x ++ y) :: joinLevels xs ys

mutual

def levels : Stmt → List (List Stmt)
  | ⟨line, endLine, form⟩ => [⟨line, endLine, form⟩] :: formLevels form

/-- The statements within one, by depth. The handlers of a failure and the cases of a match lie one
step further in. -/
def formLevels : Form → List (List Stmt)
  | .function _ _ _ _ _ body => bodyLevels body
  | .type _ _ _ _ body => bodyLevels body
  | .forEach _ _ _ body otherwise => joinLevels (bodyLevels body) (bodyLevels otherwise)
  | .whileLoop _ body otherwise => joinLevels (bodyLevels body) (bodyLevels otherwise)
  | .branch _ body otherwise => joinLevels (bodyLevels body) (bodyLevels otherwise)
  | .entering _ _ body => bodyLevels body
  | .matching _ cases => [] :: caseLevels cases
  | .tries _ body handlers otherwise final =>
    joinLevels (bodyLevels body)
      (joinLevels ([] :: handlerLevels handlers)
        (joinLevels (bodyLevels otherwise) (bodyLevels final)))
  | _ => []

def bodyLevels : List Stmt → List (List Stmt)
  | [] => []
  | s :: rest => joinLevels (levels s) (bodyLevels rest)

def handlerLevels : List Handler → List (List Stmt)
  | [] => []
  | ⟨_, _, body⟩ :: rest => joinLevels (bodyLevels body) (handlerLevels rest)

def caseLevels : List Case → List (List Stmt)
  | [] => []
  | ⟨_, _, body⟩ :: rest => joinLevels (bodyLevels body) (caseLevels rest)

end

structure Declaration where
  name : String
  isType : Bool
  line : Nat
  endLine : Nat
  bodyLine : Nat
  doc : String
  stmt : Stmt

namespace Declaration

def firstLine (body : List Stmt) (endLine : Nat) : Nat :=
  match body with
  | s :: _ => s.line
  | [] => endLine

def ofStmt? (s : Stmt) : Option Declaration :=
  match s.form with
  | .function _ name _ _ _ body =>
    some ⟨name, false, s.line, s.endLine, firstLine body s.endLine, docOf body, s⟩
  | .type name _ _ _ body =>
    some ⟨name, true, s.line, s.endLine, firstLine body s.endLine, docOf body, s⟩
  | _ => none

/-- Whether a name is one that is not documented: it has a single underscore in front. -/
def isPrivate (d : Declaration) : Bool :=
  match d.name.toList with
  | '_' :: '_' :: _ => false
  | '_' :: _ => true
  | _ => false

def needsDoc (d : Declaration) : Bool := d.doc.isEmpty && !d.isPrivate

end Declaration

def declarations (body : List Stmt) : List Declaration :=
  (bodyLevels body).flatten.filterMap Declaration.ofStmt?

end Docsmith.Assistant
