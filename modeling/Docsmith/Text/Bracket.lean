/-
Brackets: the pieces of a list that commas divide outside brackets, and the text up to the brace
that closes a body.
-/
namespace Docsmith.Text

/-- The pieces between the commas at depth zero; `piece` holds the one being read, from the back.
A piece after the last comma counts only if it is not empty. -/
def splitTopFrom (opening closing : List Char) (depth : Int) (piece : List Char) :
    List Char → List (List Char)
  | [] => if piece.isEmpty then [] else [piece.reverse]
  | c :: cs =>
    if opening.contains c then splitTopFrom opening closing (depth + 1) (c :: piece) cs
    else if closing.contains c then splitTopFrom opening closing (depth - 1) (c :: piece) cs
    else if c = ',' ∧ depth = 0 then piece.reverse :: splitTopFrom opening closing depth [] cs
    else splitTopFrom opening closing depth (c :: piece) cs

/-- The pieces of a text between the commas that stand outside brackets. A closing bracket counts
whether or not one is open. -/
def splitTop (opening closing : String) (cs : List Char) : List (List Char) :=
  splitTopFrom opening.toList closing.toList 0 [] cs

def braceDepth (depth : Int) (c : Char) : Int :=
  if c = '{' then depth + 1 else if c = '}' then depth - 1 else depth

/-- The number of characters up to the brace that closes the last of `depth` open ones, that brace
included, or of all characters if it is missing. -/
def bodyLength (depth : Int) : List Char → Nat
  | [] => 0
  | c :: cs => if 0 < depth then bodyLength (braceDepth depth c) cs + 1 else 0

/-- A body, read from just behind its opening brace up to the brace that closes it. -/
def braceBody (cs : List Char) : List Char := cs.take (bodyLength 1 cs)

/--
The body that starts at a position of `cs`. A position counted from the end reads on from the
start of the text when it reaches its end, and then holds only what lies between the two places;
`none` stands for a position before the start of the text.
-/
def bodyAt (cs : List Char) (start : Int) : Option (List Char) :=
  if 0 ≤ start then some (braceBody (cs.drop start.toNat))
  else if cs.length < start.natAbs then none
  else
    let first := cs.length - start.natAbs
    let length := bodyLength 1 (cs.drop first ++ cs)
    if length < start.natAbs then some ((cs.drop first).take length)
    else some ((cs.take (length - start.natAbs)).drop first)

end Docsmith.Text
