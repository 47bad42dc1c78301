/-
Signatures of messages: a keyed digest of the message, under a key that both sides know.
-/
import Docsmith.Digest.Hmac
import Docsmith.Fault
import Docsmith.Value

namespace Docsmith.Remote

def signature (secret : String) (message : List UInt8) : String :=
  "sha256=" ++ Digest.Hmac.hexDigest secret.toUTF8.toList message

/-- Whether a message bears its signature. What is given as one has to be ASCII text. -/
def isSigned (secret : String) (message : List UInt8) (given : Value) : Except Fault Bool :=
  match given with
  | .str s =>
    if s.toList.all fun c => c.toNat < 128 then .ok (s == signature secret message)
    else .error .nonAsciiSignature
  | v => .error (.signatureKind v.kind)

end Docsmith.Remote
