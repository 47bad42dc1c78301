/-
Printable characters: those that a quoted text shows as they are. Controls, format characters,
separators other than the space, and code points without a character are not among them.
-/
import Docsmith.Text.CharClass

namespace Docsmith.Text

def isPrintable (n : Nat) : Bool :=
  if n < 128 then 32 ≤ n && n < 127 else !hasClass "G" n

end Docsmith.Text
