/-
Blocks of 32-bit words, as the digests read them: a message is padded to whole blocks of sixteen
words, the first byte of a word being its highest, and its length in bits stands at the end.
-/
namespace Docsmith.Digest

abbrev Word := UInt32

def turnLeft (x : Word) (n : Word) : Word := (x <<< n) ||| (x >>> (32 - n))

def turnRight (x : Word) (n : Word) : Word := (x >>> n) ||| (x <<< (32 - n))

def bigEndian (count n : Nat) : List UInt8 :=
  (List.range count).reverse.map fun i => UInt8.ofNat (n / Nat.pow 256 i % 256)

def padded (message : List UInt8) : List UInt8 :=
  let zeros := (119 - message.length % 64) % 64
  message ++ 0x80 :: (List.replicate zeros 0 ++ bigEndian 8 (8 * message.length))

def words : List UInt8 → List Word
  | a :: b :: c :: d :: rest =>
    ((a.toUInt32 <<< 24) ||| (b.toUInt32 <<< 16) ||| (c.toUInt32 <<< 8) ||| d.toUInt32) ::
      words rest
  | _ => []

def blocksFrom : (room : Nat) → List Word → List (List Word)
  | 0, _ => []
  | room + 1, ws => if ws.isEmpty then [] else ws.take 16 :: blocksFrom room (ws.drop 16)

def blocks (message : List UInt8) : List (List Word) :=
  let ws := words (padded message)
  blocksFrom ws.length ws

def bytesOf (ws : List Word) : List UInt8 := ws.flatMap fun w => bigEndian 4 w.toNat

def hex (bs : List UInt8) : String :=
  String.ofList (bs.flatMap fun b => [Nat.digitChar (b.toNat / 16), Nat.digitChar (b.toNat % 16)])

end Docsmith.Digest
