/-
Writing JSON text in ASCII: any other character is written as an escape, one beyond the basic plane
as two.
-/
import Docsmith.Value

namespace Docsmith.Json

def hex4 (n : Nat) : List Char :=
  let ds := Nat.toDigits 16 n
  List.replicate (4 - ds.length) '0' ++ ds

def escapeChar (c : Char) : List Char :=
  match c with
  | '"' => ['\\', '"']
  | '\\' => ['\\', '\\']
  | '\n' => ['\\', 'n']
  | '\r' => ['\\', 'r']
  | '\t' => ['\\', 't']
  | _ =>
    let n := c.toNat
    if n = 8 then ['\\', 'b']
    else if n = 12 then ['\\', 'f']
    else if 32 ≤ n ∧ n < 127 then [c]
    else if n < 0x10000 then '\\' :: 'u' :: hex4 n
    else
      let m := n - 0x10000
      ('\\' :: 'u' :: hex4 (0xD800 + m / 0x400)) ++ ('\\' :: 'u' :: hex4 (0xDC00 + m % 0x400))

def quote (s : String) : String :=
  String.ofList ('"' :: (s.toList.flatMap escapeChar ++ ['"']))

def numberStyle : Double.Style := ⟨true, "Infinity", "NaN"⟩

/-- The parts of a list or map between brackets, each on a line of its own if there is a `margin`. -/
def layout (margin : Option Nat) (opening closing : String) (parts : List String) : String :=
  match margin with
  | none => opening ++ ", ".intercalate parts ++ closing
  | some n =>
    if parts.isEmpty then opening ++ closing
    else
      let outer := "\n" ++ String.ofList (List.replicate n ' ')
      let inner := outer ++ "  "
      opening ++ inner ++ ("," ++ inner).intercalate parts ++ outer ++ closing

mutual

/-- The text of a value; with a `margin` the parts of lists and maps stand on lines of their own, two
further to the right. A pair is written as a list, and what JSON lacks as nothing. -/
def write (margin : Option Nat) : Value → String
  | .null => "null"
  | .bool b => if b then "true" else "false"
  | .int i => toString i
  | .float x => x.write numberStyle
  | .str s => quote s
  | .list xs => layout margin "[" "]" (writeItems (margin.map (· + 2)) xs)
  | .map es => layout margin "\x7b" "\x7d" (writeEntries (margin.map (· + 2)) es)
  | .pair a b =>
    layout margin "[" "]" [write (margin.map (· + 2)) a, write (margin.map (· + 2)) b]
  | .shared _ v => write margin v
  | .date _ | .moment _ | .bytes _ | .set _ => "null"

def writeItems (margin : Option Nat) : List Value → List String
  | [] => []
  | x :: xs => write margin x :: writeItems margin xs

def writeEntries (margin : Option Nat) : List (Value × Value) → List String
  | [] => []
  | (k, v) :: es =>
    let key :=
      match k with
      | .str s => quote s
      | k => quote (write none k)
    (key ++ ": " ++ write margin v) :: writeEntries margin es

end

def compact (v : Value) : String := write none v

def pretty (v : Value) : String := write (some 0) v

end Docsmith.Json
