/-
Escapes in string literals. An unknown escape stands for itself, backslash and all; a known one
that is cut short makes the literal invalid.
-/
import Docsmith.Syntax.Numeral
import Docsmith.Text.CharName

namespace Docsmith.Syntax.Escape

def simple? : Char → Option Nat
  | '\\' => some 0x5C
  | '\'' => some 0x27
  | '"' => some 0x22
  | 'a' => some 7
  | 'b' => some 8
  | 'f' => some 12
  | 'n' => some 10
  | 'r' => some 13
  | 't' => some 9
  | 'v' => some 11
  | _ => none

def width? : Char → Option Nat
  | 'x' => some 2
  | 'u' => some 4
  | 'U' => some 8
  | _ => none

def hex? (count : Nat) (cs : List Char) : Option Nat :=
  let ds := (cs.take count).filterMap (Numeral.digit? 16)
  if ds.length = count then some (Numeral.valueOf 16 ds) else none

def octal (cs : List Char) : Numeral.Digits :=
  ((cs.take 3).takeWhile fun c => (Numeral.digit? 8 c).isSome).filterMap (Numeral.digit? 8)

/-- What the escape behind a backslash stands for, and the number of characters that it takes. -/
def codes (cs : List Char) : Option (List Nat × Nat) :=
  match cs with
  | [] => some ([0x5C], 0)
  | '\n' :: _ => some ([], 1)
  | 'N' :: '\x7b' :: rest =>
    let name := rest.takeWhile (· ≠ '\x7d')
    if name.length < rest.length then
      (Text.charNamed? name).map fun n => ([n], name.length + 3)
    else none
  | 'N' :: _ => none
  | c :: rest =>
    match simple? c, width? c with
    | some n, _ => some ([n], 1)
    | none, some count =>
      (hex? count rest).bind fun n => if n < 0x110000 then some ([n], count + 1) else none
    | none, none =>
      let ds := octal cs
      if ds.isEmpty then some ([0x5C, c.toNat], 1) else some ([Numeral.valueOf 8 ds], ds.length)

/-- The code points of a text with escapes; `skip` characters have been read with the escape in
front of them. -/
def textFrom : (skip : Nat) → List Char → Option (List Nat)
  | _, [] => some []
  | skip + 1, _ :: cs => textFrom skip cs
  | 0, c :: cs =>
    if c = '\\' then do
      let (ns, count) ← codes cs
      (textFrom count cs).map (ns ++ ·)
    else (textFrom 0 cs).map (c.toNat :: ·)

def text (cs : List Char) : Option (List Nat) := textFrom 0 cs

/-- What the escape behind a backslash stands for among bytes, where only `x` takes hexadecimal
digits. -/
def byteCodes (cs : List Char) : Option (List Nat × Nat) :=
  match cs with
  | c :: _ =>
    if c = 'N' ∨ c = 'u' ∨ c = 'U' then some ([0x5C, c.toNat], 1) else codes cs
  | [] => codes []

def bytesFrom : (skip : Nat) → List Char → Option (List UInt8)
  | _, [] => some []
  | skip + 1, _ :: cs => bytesFrom skip cs
  | 0, c :: cs =>
    if c = '\\' then do
      let (ns, count) ← byteCodes cs
      (bytesFrom count cs).map (ns.map UInt8.ofNat ++ ·)
    else (bytesFrom 0 cs).map (UInt8.ofNat c.toNat :: ·)

/-- The bytes of a text with escapes. Only ASCII can be written as it is. -/
def bytes (cs : List Char) : Option (List UInt8) :=
  if cs.all fun c => c.toNat < 128 then bytesFrom 0 cs else none

end Docsmith.Syntax.Escape
