/-
The digest SHA-1.
-/
import Docsmith.Digest.Block

namespace Docsmith.Digest.Sha1

structure State where
  a : Word
  b : Word
  c : Word
  d : Word
  e : Word

def State.initial : State := ⟨0x67452301, 0xefcdab89, 0x98badcfe, 0x10325476, 0xc3d2e1f0⟩

def State.words (s : State) : List Word := [s.a, s.b, s.c, s.d, s.e]

def State.add (s t : State) : State := ⟨s.a + t.a, s.b + t.b, s.c + t.c, s.d + t.d, s.e + t.e⟩

def extend : (count : Nat) → List Word → List Word
  | 0, ws => ws
  | count + 1, ws =>
    extend count (turnLeft (ws.getD 2 0 ^^^ ws.getD 7 0 ^^^ ws.getD 13 0 ^^^ ws.getD 15 0) 1 :: ws)

def schedule (block : List Word) : List Word := (extend 64 block.reverse).reverse

/-- How a round mixes its words, and the word that it adds, by the number of the round. -/
def mix (t : Nat) (b c d : Word) : Word × Word :=
  if t < 20 then ((b &&& c) ||| ((~~~b) &&& d), 0x5a827999)
  else if t < 40 then (b ^^^ c ^^^ d, 0x6ed9eba1)
  else if t < 60 then ((b &&& c) ||| (b &&& d) ||| (c &&& d), 0x8f1bbcdc)
  else (b ^^^ c ^^^ d, 0xca62c1d6)

def round (s : State) (t : Nat) (w : Word) : State :=
  let (mixed, k) := mix t s.b s.c s.d
  ⟨turnLeft s.a 5 + mixed + s.e + k + w, s.a, turnLeft s.b 30, s.c, s.d⟩

def compress (s : State) (block : List Word) : State :=
  s.add (((List.range 80).zip (schedule block)).foldl (fun s (t, w) => round s t w) s)

def digest (message : List UInt8) : List UInt8 :=
  bytesOf ((blocks message).foldl compress State.initial).words

def hexDigest (message : List UInt8) : String := hex (digest message)

end Docsmith.Digest.Sha1
