/-
Numbers in texts: blanks around them, a sign, and digits of any script.

A whole number is to a base, may have the base's mark in front (`0x`, `0o`, `0b`) and single
underscores between its digits. A decimal may have a fraction and an exponent, or be one of the words
for infinity and for no number. To the base of ten a text has a limited number of digits.
-/
import Docsmith.Number.Double
import Docsmith.Text.Blank
import Docsmith.Text.Digit
import Docsmith.Text.Letter

namespace Docsmith.Written

def maxDigits : Nat := 4300

def cutSign : List Char → Bool × List Char
  | '-' :: cs => (true, cs)
  | '+' :: cs => (false, cs)
  | cs => (false, cs)

def digit? (base : Nat) (c : Char) : Option Nat :=
  let letter := Text.lowerAscii c
  let value :=
    if 'a' ≤ letter ∧ letter ≤ 'z' then some (letter.toNat - 87) else Text.digitValue? c
  value.filter (· < base)

def mark? (base : Nat) : Option Char :=
  if base = 2 then some 'b' else if base = 8 then some 'o' else if base = 16 then some 'x' else none

def dropMark (base : Nat) (cs : List Char) : List Char :=
  match cs with
  | '0' :: c :: rest =>
    if mark? base = some (Text.lowerAscii c) then
      if rest.head? = some '_' then rest.tail else rest
    else cs
  | cs => cs

/-- The digits of a text, between which single underscores may stand. -/
def digitsFrom? (base : Nat) : List Char → Option (List Nat)
  | [] => some []
  | '_' :: c :: cs => do
    let d ← digit? base c
    let ds ← digitsFrom? base cs
    pure (d :: ds)
  | c :: cs => do
    let d ← digit? base c
    let ds ← digitsFrom? base cs
    pure (d :: ds)

/-- The number that digits mean to a base. There is a digit at least, and an underscore is not the
first character. -/
def nat? (base : Nat) (cs : List Char) : Option Nat := do
  let ds ← digitsFrom? base cs
  if cs.isEmpty || cs.head? = some '_' || (base = 10 && maxDigits < ds.length) then none
  else pure (ds.foldl (fun n d => base * n + d) 0)

def int? (base : Nat) (cs : List Char) : Option Int :=
  let (negative, cs) := cutSign (Text.trim cs)
  (nat? base (dropMark base cs)).map fun n => if negative then -(n : Int) else n

def cutDigits : List Char → List Nat × List Char
  | [] => ([], [])
  | c :: cs =>
    match Text.digitValue? c with
    | some d =>
      let (ds, rest) := cutDigits cs
      (d :: ds, rest)
    | none => ([], c :: cs)

def decimalValue (ds : List Nat) : Nat := ds.foldl (fun n d => 10 * n + d) 0

def scientific? (cs : List Char) : Option (Nat × Int) :=
  let (whole, rest) := cutDigits cs
  let (places, rest) :=
    match rest with
    | '.' :: rest => cutDigits rest
    | rest => ([], rest)
  let n := decimalValue (whole ++ places)
  if whole.isEmpty && places.isEmpty then none
  else
    match rest with
    | [] => some (n, -(places.length : Int))
    | e :: rest =>
      let (negative, power) := cutSign rest
      let (power, rest) := cutDigits power
      let size : Int := decimalValue power
      if Text.lowerAscii e = 'e' && !power.isEmpty && rest.isEmpty then
        some (n, (if negative then -size else size) - places.length)
      else none

def float? (cs : List Char) : Option Double :=
  let (negative, cs) := cutSign (Text.trim cs)
  let word := String.ofList (cs.map Text.lowerAscii)
  if word = "inf" ∨ word = "infinity" then some (.infinite negative)
  else if word = "nan" then some .nan
  else (scientific? cs).map fun (n, e) => .ofDecimal negative n e

end Docsmith.Written
