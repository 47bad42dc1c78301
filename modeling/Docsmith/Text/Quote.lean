/-
Texts in quotes, by code point.

The quote is a single one, unless the text has a single quote and no double one. Backslashes, the
quote in use, and characters that are not printable are written as escapes. Texts are given by code
points, since a literal may hold a half of a surrogate pair, which is no character.
-/
import Docsmith.Text.Printable

namespace Docsmith.Text

def hexDigits (count n : Nat) : List Char :=
  let ds := Nat.toDigits 16 n
  List.replicate (count - ds.length) '0' ++ ds

def hexEscape (n : Nat) : List Char :=
  if n < 0x100 then '\\' :: 'x' :: hexDigits 2 n
  else if n < 0x10000 then '\\' :: 'u' :: hexDigits 4 n
  else '\\' :: 'U' :: hexDigits 8 n

def showCode (n : Nat) : List Char :=
  if n = 0x5C then ['\\', '\\']
  else if n = 10 then ['\\', 'n']
  else if n = 13 then ['\\', 'r']
  else if n = 9 then ['\\', 't']
  else if isPrintable n then [Char.ofNat n]
  else hexEscape n

def quoteFor (codes : List Nat) : Nat := if codes.contains 39 && !codes.contains 34 then 34 else 39

def quoteCodes (codes : List Nat) : List Char :=
  let q := quoteFor codes
  let shown := codes.flatMap fun n => if n = q then ['\\', Char.ofNat q] else showCode n
  Char.ofNat q :: (shown ++ [Char.ofNat q])

def quote (s : String) : String := String.ofList (quoteCodes (s.toList.map Char.toNat))

end Docsmith.Text
