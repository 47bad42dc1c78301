/-
Documentation in a syntax tree: a string in front of a body. Its lines lose the indentation that
they have in common, the first one not counted.
-/
import Docsmith.Syntax.Tree
import Docsmith.Text.Cut

namespace Docsmith.Syntax

/-- A text with each tab replaced by blanks up to the next column of eight. -/
def expandTabsFrom (col : Nat) : List Char → List Char
  | [] => []
  | '\t' :: cs =>
    let gap := 8 - col % 8
    List.replicate gap ' ' ++ expandTabsFrom (col + gap) cs
  | c :: cs => c :: expandTabsFrom (if c = '\n' ∨ c = '\r' then 0 else col + 1) cs

def expandTabs (cs : List Char) : List Char := expandTabsFrom 0 cs

def commonMargin (lines : List (List Char)) : Option Nat :=
  (lines.filterMap fun line =>
    let content := (Text.trimStart line).length
    if content = 0 then none else some (line.length - content)).min?

def dropEmptyEnds (lines : List (List Char)) : List (List Char) :=
  ((lines.reverse.dropWhile List.isEmpty).reverse).dropWhile List.isEmpty

def cleanDoc (cs : List Char) : List Char :=
  match Text.cut '\n' (expandTabs cs) with
  | [] => []
  | first :: rest =>
    let margin := (commonMargin rest).getD 0
    Text.joinWith "\n" (dropEmptyEnds (Text.trimStart first :: rest.map (List.drop margin)))

def rawDoc? : List Stmt → Option (List Nat)
  | ⟨_, _, .evaluates (.constant (.str codes _))⟩ :: _ => some codes
  | _ => none

/-- The character that two code points make as halves of a pair. -/
def paired? (high low : Nat) : Option Char :=
  if 0xD800 ≤ high ∧ high < 0xDC00 ∧ 0xDC00 ≤ low ∧ low < 0xE000 then
    some (Char.ofNat (0x10000 + (high - 0xD800) * 0x400 + (low - 0xDC00)))
  else none

/-- The characters of code points. Two halves of a pair make one character; a half that stands alone
becomes the replacement character. -/
def charsOf : List Nat → List Char
  | [] => []
  | [n] => [if n.isValidChar then Char.ofNat n else '�']
  | n :: m :: rest =>
    match paired? n m with
    | some c => c :: charsOf rest
    | none => (if n.isValidChar then Char.ofNat n else '�') :: charsOf (m :: rest)

def docOf (body : List Stmt) : String :=
  match rawDoc? body with
  | some codes => String.ofList (cleanDoc (charsOf codes))
  | none => ""

end Docsmith.Syntax
