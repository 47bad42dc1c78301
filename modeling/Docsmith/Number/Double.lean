/-
Binary floating-point numbers of 64 bits, as exact integers.

A finite number is `significand · 2^(exponent)` with a significand below `2^53`. `ofDecimal` rounds
a decimal to the nearest such number, a tie to the even significand; `shortest` gives the fewest
decimal digits that `ofDecimal` reads back as the same number, and of those the nearest.
-/
namespace Docsmith

/-- A number as its magnitude `significand · 2^(power - 1074)`, or an infinity, or no number. -/
inductive Double where
  | finite (negative : Bool) (significand power : Nat)
  | infinite (negative : Bool)
  | nan
  deriving DecidableEq, Repr

namespace Double

def roundDiv (a b : Nat) : Nat :=
  let q := a / b
  let r := a % b
  if 2 * r < b then q
  else if b < 2 * r then q + 1
  else if q % 2 = 0 then q else q + 1

/-- The number nearest to `a / b · 2^(-1074)`. The significand has 53 bits unless the power is
zero. -/
def ofRatio (negative : Bool) (a b : Nat) : Double :=
  let power := (a / b).log2 - 52
  let m := roundDiv a (b * Nat.pow 2 power)
  let (m, power) := if m = Nat.pow 2 53 then (Nat.pow 2 52, power + 1) else (m, power)
  if 2046 ≤ power then infinite negative else finite negative m power

def ofDecimal (negative : Bool) (m : Nat) (e : Int) : Double :=
  let digits : Int := (Nat.toDigits 10 m).length
  if m = 0 || digits + e < -400 then finite negative 0 0
  else if 400 < digits + e then infinite negative
  else if 0 ≤ e then ofRatio negative (m * Nat.pow 10 e.toNat * Nat.pow 2 1074) 1
  else ofRatio negative (m * Nat.pow 2 1074) (Nat.pow 10 (-e).toNat)

def ofInt (i : Int) : Double := ofDecimal (i < 0) i.natAbs 0

def neg : Double → Double
  | finite negative m power => finite (!negative) m power
  | infinite negative => infinite (!negative)
  | nan => nan

def scaled (negative : Bool) (m power : Nat) : Int :=
  if negative then -((m * Nat.pow 2 power : Nat) : Int) else (m * Nat.pow 2 power : Nat)

def add : Double → Double → Double
  | finite s m p, finite t n q =>
    let sum := scaled s m p + scaled t n q
    if sum = 0 then finite (s && t) 0 0 else ofRatio (sum < 0) sum.natAbs 1
  | infinite s, infinite t => if s = t then infinite s else nan
  | infinite s, finite _ _ _ => infinite s
  | finite _ _ _, infinite t => infinite t
  | _, _ => nan

def mul : Double → Double → Double
  | finite s m p, finite t n q => ofRatio (s != t) (m * n * Nat.pow 2 (p + q)) (Nat.pow 2 1074)
  | infinite s, infinite t => infinite (s != t)
  | infinite s, finite t n _ => if n = 0 then nan else infinite (s != t)
  | finite s m _, infinite t => if m = 0 then nan else infinite (s != t)
  | _, _ => nan

def readsBack (m power d : Nat) (e : Int) : Bool := ofDecimal false d e == finite false m power

/-- Decimals with `count` digits around `m · 2^(power - 1074)`: the two neighbours on the grid of
that many digits, the nearer first. -/
def neighbours (m power count : Nat) (lead : Int) : List (Nat × Int) :=
  let e := lead - count
  let num := m * Nat.pow 2 power
  let (num, den) :=
    if 0 ≤ e then (num, Nat.pow 2 1074 * Nat.pow 10 e.toNat)
    else (num * Nat.pow 10 (-e).toNat, Nat.pow 2 1074)
  let low := num / den
  if 2 * (num % den) < den ∨ (2 * (num % den) = den ∧ low % 2 = 0) then [(low, e), (low + 1, e)]
  else [(low + 1, e), (low, e)]

def shortestFrom (m power : Nat) (lead : Int) : (room count : Nat) → Nat × Int
  | 0, count => ((neighbours m power count lead).headD (0, 0))
  | room + 1, count =>
    match (neighbours m power count lead).find? fun (d, e) => readsBack m power d e with
    | some found => found
    | none => shortestFrom m power lead room (count + 1)

/-- The decimal position of the first digit of `m · 2^(power - 1074)`: `10^(lead - 1)` is the
largest power of ten that is not above it. -/
def leadOf (m power : Nat) : Int :=
  let whole := m * Nat.pow 2 power / Nat.pow 2 1074
  if 0 < whole then (Nat.toDigits 10 whole).length
  else (Nat.toDigits 10 (m * Nat.pow 2 power * Nat.pow 10 400 / Nat.pow 2 1074)).length - 400

def dropZeros : (room d : Nat) → Int → Nat × Int
  | 0, d, e => (d, e)
  | room + 1, d, e => if d ≠ 0 ∧ d % 10 = 0 then dropZeros room (d / 10) (e + 1) else (d, e)

/-- The shortest decimal `d · 10^e` that reads back as `m · 2^(power - 1074)`. -/
def shortest (m power : Nat) : Nat × Int :=
  if m = 0 then (0, 0)
  else
    let (d, e) := shortestFrom m power (leadOf m power) 16 1
    dropZeros 17 d e

/-- How numbers are written: whether a whole number gets a fraction `.0`, and the texts of the
values that are not finite. -/
structure Style where
  wholeFraction : Bool
  infinity : String
  notNumber : String

def Style.value : Style := ⟨true, "inf", "nan"⟩

/-- Digits of `d · 10^e`, positional if the first digit has a weight from `10^-4` up to `10^15`,
otherwise with an exponent of two digits at least. -/
def writeDecimal (style : Style) (d : Nat) (e : Int) : String :=
  let digits := Nat.toDigits 10 d
  let point : Int := digits.length + e
  if d = 0 then if style.wholeFraction then "0.0" else "0"
  else if -4 < point ∧ point ≤ 16 then
    if 0 ≤ e then
      String.ofList (digits ++ List.replicate e.toNat '0') ++
        (if style.wholeFraction then ".0" else "")
    else if 0 < point then
      String.ofList (digits.take point.toNat ++ '.' :: digits.drop point.toNat)
    else String.ofList ('0' :: '.' :: (List.replicate (-point).toNat '0' ++ digits))
  else
    let exponent := point - 1
    let size := Nat.toDigits 10 exponent.natAbs
    let size := if size.length < 2 then '0' :: size else size
    String.ofList
      (digits.take 1 ++ (if digits.length = 1 then [] else '.' :: digits.drop 1) ++
        'e' :: (if exponent < 0 then '-' else '+') :: size)

def write (style : Style) : Double → String
  | finite negative m power =>
    let (d, e) := shortest m power
    (if negative then "-" else "") ++ writeDecimal style d e
  | infinite negative => (if negative then "-" else "") ++ style.infinity
  | nan => style.notNumber

def toInt? : Double → Option Int
  | finite negative m power =>
    let n := m * Nat.pow 2 power
    if n % Nat.pow 2 1074 = 0 then
      some (if negative then -(n / Nat.pow 2 1074 : Nat) else (n / Nat.pow 2 1074 : Nat))
    else none
  | _ => none

def isZero : Double → Bool
  | finite _ m _ => m == 0
  | _ => false

end Double

end Docsmith
