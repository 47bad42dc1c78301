/-
Number literals. Digits may be grouped by single underscores; a number of base ten has no zero in
front unless it is zero or has a fraction, an exponent or an imaginary unit.
-/
import Docsmith.Syntax.Tree

namespace Docsmith.Syntax.Numeral

abbrev Digits := List Nat

def digit? (base : Nat) (c : Char) : Option Nat :=
  let n := c.toNat
  let d :=
    if 48 ≤ n ∧ n ≤ 57 then n - 48
    else if 97 ≤ n ∧ n ≤ 102 then n - 87
    else if 65 ≤ n ∧ n ≤ 70 then n - 55
    else 16
  if d < base then some d else none

def valueOf (base : Nat) (ds : Digits) : Nat := ds.foldl (fun n d => base * n + d) 0

/-- Digits with underscores between them, as many as there are. Fails if an underscore has no digit
behind it. -/
def digits (base : Nat) : List Char → Option (Digits × List Char)
  | [] => some ([], [])
  | '_' :: c :: cs =>
    match digit? base c with
    | none => none
    | some d => (digits base cs).map fun (ds, rest) => (d :: ds, rest)
  | c :: cs =>
    if c = '_' then none
    else
      match digit? base c with
      | none => some ([], c :: cs)
      | some d => (digits base cs).map fun (ds, rest) => (d :: ds, rest)

def goesOn (c : Char) : Bool := c.isAlphanum || c == '_' || 128 ≤ c.toNat

def startsWord (word : String) (cs : List Char) : Bool :=
  word.toList.isPrefixOf cs && !((cs.drop word.length).head?.any goesOn)

/-- Whether a number may end before `cs`: nothing that goes on a name follows, other than a word
that can stand behind an operand. -/
def mayEnd (cs : List Char) : Bool :=
  ["and", "else", "for", "or", "not"].any (startsWord · cs) ||
    ["if", "in", "is"].any (fun word => word.toList.isPrefixOf cs) || !(cs.head?.any goesOn)

def ended (c : Constant) (cs : List Char) : Option (Constant × List Char) :=
  if mayEnd cs then some (c, cs) else none

/-- The most digits that an integer of base ten may have, unless they are all zero. -/
def maxDigits : Nat := 4300

def based (base : Nat) (cs : List Char) : Option (Constant × List Char) := do
  let (ds, rest) ← digits base cs
  if ds.isEmpty || rest.head?.any Char.isDigit then none
  else ended (.int (valueOf base ds)) rest

/-- What follows the digits of a fraction or an exponent: an imaginary unit or the end. -/
def scaled (m : Nat) (e : Int) (cs : List Char) : Option (Constant × List Char) :=
  let d := Double.ofDecimal false m e
  match cs with
  | 'j' :: rest => ended (.imaginary d) rest
  | 'J' :: rest => ended (.imaginary d) rest
  | rest => ended (.float d) rest

def exponent (negative : Bool) (m : Nat) (e : Int) (cs : List Char) :
    Option (Constant × List Char) := do
  if !(cs.head?.any Char.isDigit) then none
  else
    let (ds, rest) ← digits 10 cs
    let x : Int := valueOf 10 ds
    scaled m (if negative then e - x else e + x) rest

/-- What may follow the digits `m` with the scale `e`: an exponent, an imaginary unit, or the end,
where the number is `plain`, or `beforeElse` if the end is an `else` without a blank. -/
def tail (plain beforeElse : Option Constant) (m : Nat) (e : Int) (cs : List Char) :
    Option (Constant × List Char) :=
  match cs with
  | c :: rest =>
    if c = 'e' ∨ c = 'E' then
      match rest with
      | '+' :: ds => exponent false m e ds
      | '-' :: ds => exponent true m e ds
      | d :: _ =>
        if d.isDigit then exponent false m e rest
        else if startsWord "else" cs then beforeElse.map (·, cs)
        else none
      | [] => none
    else if c = 'j' ∨ c = 'J' then ended (.imaginary (.ofDecimal false m e)) rest
    else plain.bind (ended · cs)
  | [] => plain.map (·, [])

def fraction (m : Nat) (cs : List Char) : Option (Constant × List Char) := do
  let (ds, rest) ← if cs.head?.any Char.isDigit then digits 10 cs else some ([], cs)
  let m := m * Nat.pow 10 ds.length + valueOf 10 ds
  let e : Int := -ds.length
  let plain := some (.float (.ofDecimal false m e))
  tail plain plain m e rest

/-- A number of base ten. Where an `else` follows at once, one with zeros in front is read with a
fraction of none. -/
def decimal (cs : List Char) : Option (Constant × List Char) := do
  let (ds, rest) ← digits 10 cs
  let m := valueOf 10 ds
  match rest with
  | '.' :: rest => fraction m rest
  | rest =>
    let isPadded := m != 0 && ds.head? == some 0
    let plain := if m = 0 ∨ (!isPadded && ds.length ≤ maxDigits) then some (.int m) else none
    tail plain (if isPadded then some (.float (.ofDecimal false m 0)) else plain) m 0 rest

def read (cs : List Char) : Option (Constant × List Char) :=
  match cs with
  | '.' :: rest => fraction 0 rest
  | '0' :: c :: rest =>
    if c = 'x' ∨ c = 'X' then based 16 rest
    else if c = 'o' ∨ c = 'O' then based 8 rest
    else if c = 'b' ∨ c = 'B' then based 2 rest
    else decimal cs
  | _ => decimal cs

end Docsmith.Syntax.Numeral
