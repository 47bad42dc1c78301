/-
UTF-8: reading bytes as text.

A byte sequence that is no text has a first defect: a byte that cannot start a character, a byte
that does not continue one, or an end in the middle of one. `decode` reports it, `decodeLossy` puts
the replacement character in the place of every defect.
-/
namespace Docsmith.Text.Utf8

inductive Defect where
  | start
  | continuation
  | ending
  deriving DecidableEq, Repr

/-- The bytes at which a text cannot be read: the first, by position and value, and how many. -/
structure Error where
  defect : Defect
  pos : Nat
  byte : UInt8
  count : Nat
  deriving DecidableEq, Repr

namespace Error

def hex2 (b : UInt8) : String :=
  let ds := Nat.toDigits 16 b.toNat
  String.ofList (List.replicate (2 - ds.length) '0' ++ ds)

def message (e : Error) : String :=
  let reason :=
    match e.defect with
    | .start => "invalid start byte"
    | .continuation => "invalid continuation byte"
    | .ending => "unexpected end of data"
  if e.count = 1 then
    "'utf-8' codec can't decode byte 0x" ++ hex2 e.byte ++ " in position " ++ toString e.pos ++
      ": " ++ reason
  else
    "'utf-8' codec can't decode bytes in position " ++ toString e.pos ++ "-" ++
      toString (e.pos + e.count - 1) ++ ": " ++ reason

end Error

/-- How many bytes a character takes by its first byte; none if it cannot be one. -/
def size? (b : UInt8) : Option Nat :=
  if b < 0x80 then some 1
  else if b < 0xC2 then none
  else if b < 0xE0 then some 2
  else if b < 0xF0 then some 3
  else if b < 0xF5 then some 4
  else none

def isSecond (first next : UInt8) : Bool :=
  0x80 ≤ next && next < 0xC0 &&
    !(first == 0xE0 && next < 0xA0) && !(first == 0xED && 0xA0 ≤ next) &&
    !(first == 0xF0 && next < 0x90) && !(first == 0xF4 && 0x90 ≤ next)

def isTail (b : UInt8) : Bool := 0x80 ≤ b && b < 0xC0

def taken (first : UInt8) (size : Nat) : List UInt8 → List UInt8
  | [] => []
  | second :: more =>
    if size < 2 then []
    else if isSecond first second then second :: (more.take (size - 2)).takeWhile isTail
    else []

def value (first : UInt8) (tail : List UInt8) : Char :=
  let lead :=
    match tail.length with
    | 0 => first.toNat
    | 1 => first.toNat % 32
    | 2 => first.toNat % 16
    | _ => first.toNat % 8
  Char.ofNat (tail.foldl (fun n b => 64 * n + b.toNat % 64) lead)

/-- One step at the byte `first`: a character and the number of bytes behind the first, or a
defect and the number of bytes that it takes. -/
def step (first : UInt8) (rest : List UInt8) : Except (Defect × Nat) (Char × Nat) :=
  match size? first with
  | none => .error (.start, 1)
  | some size =>
    let tail := taken first size rest
    if tail.length + 1 = size then .ok (value first tail, tail.length)
    else if tail.length = rest.length then .error (.ending, tail.length + 1)
    else .error (.continuation, tail.length + 1)

/-- Reads bytes from position `pos` on; the first `skip` belong to a character already read, and
`done` holds the characters so far, from the back. -/
def decodeFrom (pos skip : Nat) (done : List Char) : List UInt8 → Except Error (List Char)
  | [] => .ok done.reverse
  | b :: bs =>
    match skip with
    | skip + 1 => decodeFrom (pos + 1) skip done bs
    | 0 =>
      match step b bs with
      | .ok (c, n) => decodeFrom (pos + 1) n (c :: done) bs
      | .error (defect, count) => .error ⟨defect, pos, b, count⟩

def decode (bs : List UInt8) : Except Error (List Char) := decodeFrom 0 0 [] bs

/-- Reads bytes as `decodeFrom` does, with a replacement for each defect. -/
def decodeLossyFrom (skip : Nat) (done : List Char) : List UInt8 → List Char
  | [] => done.reverse
  | b :: bs =>
    match skip with
    | skip + 1 => decodeLossyFrom skip done bs
    | 0 =>
      match step b bs with
      | .ok (c, n) => decodeLossyFrom n (c :: done) bs
      | .error (_, count) => decodeLossyFrom (count - 1) ('�' :: done) bs

def decodeLossy (bs : List UInt8) : List Char := decodeLossyFrom 0 [] bs

def encode (cs : List Char) : List UInt8 := (String.ofList cs).toUTF8.toList

end Docsmith.Text.Utf8
