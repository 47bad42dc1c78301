/-
Documentation comments and what they document.

A comment belongs to the position at which the documented text starts: for a block comment the
first character behind it that is not blank, for a run of line comments the start of the line
behind it. Where two comments belong to one position the later counts.
-/
import Docsmith.Pattern.Token
import Docsmith.Text.Cut

namespace Docsmith

/-- Comment texts and the positions that they belong to, in the order in which they were found. -/
abbrev Comments := List (Nat × String)

namespace Comments

def textAt (cs : Comments) (pos : Nat) : String :=
  ((cs.reverse.find? fun entry => entry.1 == pos).map Prod.snd).getD ""

def ordered (cs : Comments) : Comments :=
  let last := cs.foldl (fun kept entry => kept.filter (fun e => e.1 != entry.1) ++ [entry]) []
  last.mergeSort fun a b => a.1 ≤ b.1

/-- The block comments that `p` matches, their inside in group 1. -/
def ofBlocks (p : Pattern) (clean : List Char → String) (source : List Char) : Comments :=
  (p.findAll source).map fun m =>
    (m.stop.pos + (m.stop.rest.takeWhile Text.isBlank).length, clean (m.group 1))

/-- The runs of line comments that `p` matches as group 1. -/
def ofLines (p : Pattern) (clean : List Char → String) (source : List Char) : Comments :=
  (p.findAll source).map fun m => (m.stop.pos, clean (m.group 1))

end Comments

namespace Comment

def cleaned (line : List Char → Option (List Char)) (raw : List Char) : String :=
  String.ofList (Text.trim (Text.joinWith "\n" ((Text.cut '\n' (Text.trim raw)).filterMap line)))

def cleanLines (leads : List String) : List Char → String :=
  cleaned fun line => some (Text.dropLead leads (Text.trim line))

/-- The text of a block comment, its lines freed of a leading star and the lines that `isTag`
recognises left out. -/
def cleanBlock (isTag : List Char → Bool) : List Char → String :=
  cleaned fun line =>
    let content := Text.dropLead ["* ", "*"] (Text.trim line)
    if isTag content then none else some (Text.trim content)

def startsTag (line : List Char) : Bool := line.head? == some '@'

def startsTagTrimmed (line : List Char) : Bool := startsTag (Text.trim line)

end Comment

namespace Pattern

/-- A comment between `/**` and the next `*/`, the inside as group 1. -/
def starBlock : Pattern := lit "/**" ++ group 1 (chars (fun _ => true) 0 false) ++ lit "*/"

/-- A run of whole lines that start with one of `leads`, possibly behind a margin, as group 1. -/
def commentLines (start : Pattern) (leads : List String) : Pattern :=
  group 1 (many1 (lineStart ++ start ++ oneOf leads ++ restOfLine))

end Pattern

end Docsmith
