/-
Upper, lower and title case.

`isUpper` and `isLower` are the derived properties `Uppercase` and `Lowercase`, `isTitle` the
general category `Lt`. `allUpper` is the test for a name written in capitals: what is not a letter
with case does not count, and one capital at least is needed.
-/
import Docsmith.Text.CharClass

namespace Docsmith.Text

def isUpper (c : Char) : Bool :=
  if c.toNat < 128 then 'A' ≤ c && c ≤ 'Z' else hasClass "IP" c.toNat

def isLower (c : Char) : Bool :=
  if c.toNat < 128 then 'a' ≤ c && c ≤ 'z' else hasClass "HRST" c.toNat

def isTitle (c : Char) : Bool := c.toNat ≥ 128 && hasClass "O" c.toNat

def allUpper (cs : List Char) : Bool :=
  cs.any isUpper && cs.all fun c => !isLower c && !isTitle c

def lowerAscii (c : Char) : Char :=
  if 'A' ≤ c && c ≤ 'Z' then Char.ofNat (c.toNat + 32) else c

/--
A text with its letters in lower case, as far as the lower-case letter is an ASCII one: that holds
of the ASCII capitals and of the Kelvin sign. Enough to compare a text with an ASCII word without
regard to case.
-/
def foldCase (cs : List Char) : List Char :=
  cs.map fun c => if c.toNat = 0x212A then 'k' else lowerAscii c

end Docsmith.Text
