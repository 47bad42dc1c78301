/-
Word characters: letters, digits and other numerals of any script, and the underscore.

The ASCII ones are decided by comparison, the others by their class. A word boundary, wherever the
library speaks of one, lies between a word character and anything else.
-/
import Docsmith.Text.Blank
import Docsmith.Text.CharClass

namespace Docsmith.Text

def isAsciiWord (c : Char) : Bool := c.isAlphanum || c == '_'

def isWord (c : Char) : Bool :=
  if c.toNat < 128 then isAsciiWord c else !isBlank c && hasClass "HIJMNOS" c.toNat

end Docsmith.Text
