/-
Cutting a text at characters and putting it together again.
-/
import Docsmith.Text.Blank

namespace Docsmith.Text

def cutFrom (sep : Char) (piece : List Char) : List Char → List (List Char)
  | [] => [piece.reverse]
  | c :: cs =>
    if c = sep then piece.reverse :: cutFrom sep [] cs else cutFrom sep (c :: piece) cs

/-- The pieces of a text between the characters `sep`: one more than there are such characters. -/
def cut (sep : Char) (cs : List Char) : List (List Char) := cutFrom sep [] cs

def cutFirst? (sep : Char) (cs : List Char) : Option (List Char × List Char) :=
  match cs.dropWhile (· != sep) with
  | [] => none
  | _ :: after => some (cs.takeWhile (· != sep), after)

def cutLast? (sep : Char) (cs : List Char) : Option (List Char × List Char) :=
  (cutFirst? sep cs.reverse).map fun (after, before) => (before.reverse, after.reverse)

def occurs (needle : List Char) : List Char → Bool
  | [] => needle.isEmpty
  | c :: cs => needle.isPrefixOf (c :: cs) || occurs needle cs

def dropPrefix? : (lead cs : List Char) → Option (List Char)
  | [], cs => some cs
  | _ :: _, [] => none
  | x :: xs, c :: cs => if x = c then dropPrefix? xs cs else none

def dropLead (leads : List String) (cs : List Char) : List Char :=
  (leads.findSome? fun lead => dropPrefix? lead.toList cs).getD cs

def substFrom (old new : List Char) : (skip : Nat) → List Char → List Char
  | _, [] => []
  | skip + 1, _ :: cs => substFrom old new skip cs
  | 0, c :: cs =>
    if old.isPrefixOf (c :: cs) then new ++ substFrom old new (old.length - 1) cs
    else c :: substFrom old new 0 cs

/-- A text with every `old` written as `new`, from left to right; `old` is not empty. -/
def subst (old new cs : List Char) : List Char := substFrom old new 0 cs

def joinWith (sep : String) (parts : List (List Char)) : List Char :=
  sep.toList.intercalate parts

def lastWord? (cs : List Char) : Option (List Char × List Char) :=
  let back := cs.reverse.dropWhile isBlank
  match back.takeWhile (!isBlank ·) with
  | [] => none
  | word => some ((back.dropWhile (!isBlank ·)).dropWhile isBlank |>.reverse, word.reverse)

def lineAt (cs : List Char) (pos : Nat) : Nat := (cs.take pos).count '\n' + 1

def dropAt (start : Int) (cs : List Char) : List Char :=
  if 0 ≤ start then cs.drop start.toNat else cs.drop (cs.length - start.natAbs)

end Docsmith.Text
