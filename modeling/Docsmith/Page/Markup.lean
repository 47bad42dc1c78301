/-
Markup with texts in it. Which part of a page is markup and which is a text to show is kept apart
until the page is rendered, since texts may be escaped there; whether they are is decided by the
name of the template that the page is made from.
-/
namespace Docsmith.Page

/-- A part of a page: markup, which stands as it is, or a text to show. -/
inductive Piece where
  | markup (s : String)
  | text (s : String)
  deriving DecidableEq, Repr

abbrev Markup := List Piece

instance : Coe String Markup := ⟨fun s => [.markup s]⟩

def shown (s : String) : Markup := [.text s]

def lines (ls : List Markup) : Markup := ls.flatMap fun l => l ++ [.markup "\n"]

def blocks (bs : List (List Markup)) : List Markup := bs.flatten

def linesIf (b : Bool) (ls : List Markup) : List Markup := if b then ls else []

/-! ## Escaping -/

def entity? : Char → Option String
  | '&' => some "&amp;"
  | '<' => some "&lt;"
  | '>' => some "&gt;"
  | '\'' => some "&#39;"
  | '"' => some "&#34;"
  | _ => none

def escape (s : String) : String :=
  String.ofList (s.toList.flatMap fun c => ((entity? c).map String.toList).getD [c])

def Piece.render (isEscaping : Bool) : Piece → String
  | markup s => s
  | text s => if isEscaping then escape s else s

def render (isEscaping : Bool) (m : Markup) : String := String.join (m.map (Piece.render isEscaping))

/-! ## Templates -/

/-- What pages are made from: the frame of a page, and the bodies of the index and of a module. -/
inductive Template where
  | page
  | index
  | module
  deriving DecidableEq, Repr

namespace Template

def fileName : Template → String
  | page => "page.html.j2"
  | index => "index.html.j2"
  | module => "module.html.j2"

def escapedExtensions : List String := [".html"]

def escapes (t : Template) : Bool :=
  escapedExtensions.any fun ext => ext.toList.isSuffixOf t.fileName.toList

end Template

end Docsmith.Page
