/-
Bytes as text: three bytes as four letters, six bits each.
-/
namespace Docsmith.Text.Base64

def letters : List Char := "ABCDEFGHIJKLMNOPQRSTUVWXYZabcdefghijklmnopqrstuvwxyz0123456789+/".toList

def letter (n : Nat) : Char := letters.getD (n % 64) 'A'

def bits? (c : Char) : Option Nat := letters.idxOf? c

def encode : List UInt8 → List Char
  | a :: b :: c :: rest =>
    let n := a.toNat * 65536 + b.toNat * 256 + c.toNat
    letter (n / 262144) :: letter (n / 4096) :: letter (n / 64) :: letter n :: encode rest
  | [a, b] =>
    let n := a.toNat * 65536 + b.toNat * 256
    [letter (n / 262144), letter (n / 4096), letter (n / 64), '=']
  | [a] =>
    let n := a.toNat * 65536
    [letter (n / 262144), letter (n / 4096), '=', '=']
  | [] => []

/-- Letters in lines of 76, each with its end. -/
def inLines : (room : Nat) → List Char → List Char
  | 0, cs => cs
  | room + 1, cs => if cs.isEmpty then [] else cs.take 76 ++ '\n' :: inLines room (cs.drop 76)

def encodeLines (bs : List UInt8) : List Char :=
  let cs := encode bs
  inLines cs.length cs

/-- The bytes that letters stand for, as far as a group that is filled up. `held` are the bits of
the letters of the group so far, and `pads` counts the signs of filling since the last letter. Other
characters are passed over. -/
def decodeFrom (held : List Nat) (pads : Nat) : List Char → Option (List UInt8)
  | [] => if held.isEmpty then some [] else none
  | '=' :: rest =>
    match held with
    | [a, b] =>
      if 4 ≤ 2 + (pads + 1) then some [UInt8.ofNat (a * 4 + b / 16)]
      else decodeFrom held (pads + 1) rest
    | [a, b, c] => some [UInt8.ofNat (a * 4 + b / 16), UInt8.ofNat (b % 16 * 16 + c / 4)]
    | _ => decodeFrom held pads rest
  | ch :: rest =>
    match bits? ch with
    | none => decodeFrom held pads rest
    | some n =>
      match held with
      | [a, b, c] =>
        (decodeFrom [] 0 rest).map fun bs =>
          UInt8.ofNat (a * 4 + b / 16) :: UInt8.ofNat (b % 16 * 16 + c / 4) ::
            UInt8.ofNat (c % 4 * 64 + n) :: bs
      | held => decodeFrom (held ++ [n]) 0 rest

def decode (cs : List Char) : Option (List UInt8) := decodeFrom [] 0 cs

end Docsmith.Text.Base64
