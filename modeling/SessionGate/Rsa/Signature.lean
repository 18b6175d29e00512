import SessionGate.Hash.Sha256
import SessionGate.Rsa.Key

/-!
Signatures of a digest under an RSA key. The digest is set into a block as long as the modulus,
behind a fixed frame, and the block is raised to the secret exponent; raised to the public exponent
it must come back.
-/

namespace SessionGate.Rsa

def powMod (n b e : Nat) : Nat :=
  if e = 0 then 1 % n
  else
    let half := powMod n (b * b % n) (e / 2)
    if e % 2 = 1 then b * half % n else half
termination_by e
decreasing_by omega

/-- The name of SHA-256 and the head of the digest that follows it. -/
def digestHead : List UInt8 :=
  [0x30, 0x31, 0x30, 0x0d, 0x06, 0x09, 0x60, 0x86, 0x48, 0x01, 0x65, 0x03, 0x04, 0x02, 0x01, 0x05,
    0x00, 0x04, 0x20]

/-- The block of a message for a key of so many bytes, if it has room for it. -/
def block? (size : Nat) (message : List UInt8) : Option (List UInt8) :=
  let tail := digestHead ++ Sha256.digest message
  if size < tail.length + 11 then none
  else some ([0, 1] ++ List.replicate (size - tail.length - 3) 0xff ++ 0 :: tail)

def fixedBytes (size n : Nat) : List UInt8 :=
  let bytes := Der.bytesOfNat n
  List.replicate (size - bytes.length) 0 ++ bytes

/-- The signature of a message. A key without room for the block, or one whose exponents do not
undo each other, gives none. -/
def PrivateKey.sign? (k : PrivateKey) (message : List UInt8) : Option (List UInt8) := do
  let size := k.toPublic.size
  let m := Der.natOfBytes (← block? size message)
  let s := powMod k.modulus m k.secret
  if powMod k.modulus s k.exponent = m then some (fixedBytes size s) else none

def PublicKey.accepts (k : PublicKey) (message signature : List UInt8) : Bool :=
  k.Sound && k.bits ≤ greatestBits && signature.length == k.size &&
    let s := Der.natOfBytes signature
    s < k.modulus &&
      some (fixedBytes k.size (powMod k.modulus s k.exponent)) == block? k.size message

end SessionGate.Rsa
