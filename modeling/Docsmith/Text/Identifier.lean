/-
Identifier characters of any script: the derived properties `XID_Start` and `XID_Continue`, with
the underscore among the former.
-/
import Docsmith.Text.CharClass

namespace Docsmith.Text

def isIdentifierStart (c : Char) : Bool :=
  if c.toNat < 128 then c.isAlpha || c == '_' else hasClass "HIJOQ" c.toNat

def isIdentifierRest (c : Char) : Bool :=
  if c.toNat < 128 then c.isAlphanum || c == '_'
  else isIdentifierStart c || hasClass "LNR" c.toNat

def isIdentifier : List Char → Bool
  | [] => false
  | c :: cs => isIdentifierStart c && cs.all isIdentifierRest

end Docsmith.Text
