/-
The keyed digest HMAC with SHA-256.
-/
import Docsmith.Digest.Sha256

namespace Docsmith.Digest.Hmac

def blockSize : Nat := 64

def blockKey (key : List UInt8) : List UInt8 :=
  let key := if blockSize < key.length then Sha256.digest key else key
  key ++ List.replicate (blockSize - key.length) 0

def digest (key message : List UInt8) : List UInt8 :=
  let key := blockKey key
  Sha256.digest (key.map (· ^^^ 0x5c) ++ Sha256.digest (key.map (· ^^^ 0x36) ++ message))

def hexDigest (key message : List UInt8) : String := hex (digest key message)

end Docsmith.Digest.Hmac
