/-
What is printed, as plain lines. Markup stands in brackets and is left out; a backslash in front of
a bracket keeps it.
-/
import Docsmith.World

namespace Docsmith

def startsMarkup (cs : List Char) : Bool :=
  match cs with
  | c :: _ => (c.isLower || c = '/') && cs.contains ']'
  | [] => false

/-- A text without markup; inside markup, everything up to the closing bracket is passed over. -/
def plainFrom : (isInside : Bool) → List Char → List Char
  | _, [] => []
  | true, c :: cs => plainFrom (c ≠ ']') cs
  | false, '\\' :: '[' :: cs => '[' :: plainFrom false cs
  | false, c :: cs =>
    if c = '[' && startsMarkup cs then plainFrom true cs else c :: plainFrom false cs

def plainText (markup : String) : String := String.ofList (plainFrom false markup.toList)

def Notice.plain : Notice → List String
  | .text markup => [plainText markup]
  | .panel body title _ => [plainText title, plainText body]
  | .table title columns rows =>
    plainText title :: (columns :: rows).map fun row => "  ".intercalate (row.map plainText)

end Docsmith
