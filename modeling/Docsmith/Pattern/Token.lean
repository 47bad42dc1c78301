/-
The pieces that the patterns of programming languages are made of: blanks, words, modifiers and
bracketed parts.
-/
import Docsmith.Pattern.Basic
import Docsmith.Text.Word

namespace Docsmith.Pattern

def except (s : String) : Char → Bool := fun c => !s.toList.contains c

def among (s : String) : Char → Bool := fun c => s.toList.contains c

def blanks : Pattern := run0 Text.isBlank

def blanks1 : Pattern := run1 Text.isBlank

def word : Pattern := run1 Text.isWord

def margin : Pattern := run0 (among " \t")

def margin1 : Pattern := run1 (among " \t")

def keyword (ws : List String) : Pattern := oneOf ws ++ blanks1

def modifiers (ws : List String) : Pattern := many (keyword ws)

def angles : Pattern := lit "<" ++ run0 (except ">") ++ lit ">"

def parens (n : Nat) : Pattern := lit "(" ++ group n (run0 (except ")")) ++ lit ")"

def restOfLine : Pattern := run0 (except "\n") ++ lit "\n"

def oneAmong (s : String) : Pattern := one (among s)

end Docsmith.Pattern
