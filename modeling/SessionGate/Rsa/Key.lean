import SessionGate.Encoding.Der
import SessionGate.Encoding.Pem

/-!
RSA keys and their armoured texts. A private key is written alone or inside a wrapper that names the
algorithm, and so is a public key. Only keys that can work are read: an odd modulus above an odd
exponent, and for private keys two factors that fit the exponents.
-/

namespace SessionGate.Rsa

structure PublicKey where
  modulus : Nat
  exponent : Nat
deriving DecidableEq, Repr

structure PrivateKey where
  modulus : Nat
  exponent : Nat
  secret : Nat
  prime1 : Nat
  prime2 : Nat
deriving DecidableEq, Repr

def PrivateKey.toPublic (k : PrivateKey) : PublicKey := ⟨k.modulus, k.exponent⟩

def bitLength (n : Nat) : Nat := if n = 0 then 0 else n.log2 + 1

def PublicKey.bits (k : PublicKey) : Nat := bitLength k.modulus

/-- Bytes of the modulus, which is also the length of a signature. -/
def PublicKey.size (k : PublicKey) : Nat := (k.bits + 7) / 8

def leastExponent : Nat := 2

def greatestExponent : Nat := 0x1ffffffff

/-- Public keys beyond this length are refused. -/
def greatestBits : Nat := 4096

def newBits : Nat := 2048

structure PublicKey.Sound (k : PublicKey) : Prop where
  exponent_lt : k.exponent < k.modulus
  modulus_odd : k.modulus % 2 = 1
  exponent_odd : k.exponent % 2 = 1
  least_le : leastExponent ≤ k.exponent
  le_greatest : k.exponent ≤ greatestExponent

instance (k : PublicKey) : Decidable k.Sound :=
  decidable_of_iff
    (k.exponent < k.modulus ∧ k.modulus % 2 = 1 ∧ k.exponent % 2 = 1 ∧ leastExponent ≤ k.exponent
      ∧ k.exponent ≤ greatestExponent)
    ⟨fun ⟨h1, h2, h3, h4, h5⟩ => ⟨h1, h2, h3, h4, h5⟩,
      fun ⟨h1, h2, h3, h4, h5⟩ => ⟨h1, h2, h3, h4, h5⟩⟩

structure PrivateKey.Sound (k : PrivateKey) : Prop where
  public_sound : k.toPublic.Sound
  prime1_gt : 1 < k.prime1
  prime2_gt : 1 < k.prime2
  modulus_eq : k.prime1 * k.prime2 = k.modulus
  inverse1 : k.secret * k.exponent % (k.prime1 - 1) = 1 % (k.prime1 - 1)
  inverse2 : k.secret * k.exponent % (k.prime2 - 1) = 1 % (k.prime2 - 1)

instance (k : PrivateKey) : Decidable k.Sound :=
  decidable_of_iff
    (k.toPublic.Sound ∧ 1 < k.prime1 ∧ 1 < k.prime2 ∧ k.prime1 * k.prime2 = k.modulus
      ∧ k.secret * k.exponent % (k.prime1 - 1) = 1 % (k.prime1 - 1)
      ∧ k.secret * k.exponent % (k.prime2 - 1) = 1 % (k.prime2 - 1))
    ⟨fun ⟨h1, h2, h3, h4, h5, h6⟩ => ⟨h1, h2, h3, h4, h5, h6⟩,
      fun ⟨h1, h2, h3, h4, h5, h6⟩ => ⟨h1, h2, h3, h4, h5, h6⟩⟩

def bareLabel : String := "RSA PRIVATE KEY"
def wrappedLabel : String := "PRIVATE KEY"
def barePublicLabel : String := "RSA PUBLIC KEY"
def wrappedPublicLabel : String := "PUBLIC KEY"

/-- Names RSA encryption, which takes no parameters. -/
def algorithm : List Der.Value :=
  [.objectId [0x2a, 0x86, 0x48, 0x86, 0xf7, 0x0d, 0x01, 0x01, 0x01], .null]

def isAlgorithm : Der.Value → Bool
  | .sequence [.objectId bytes, .null] => bytes = [0x2a, 0x86, 0x48, 0x86, 0xf7, 0x0d, 0x01, 0x01, 0x01]
  | _ => false

def PublicKey.ofDer? : Der.Value → Option PublicKey
  | .sequence [.integer n, .integer e] => some ⟨n, e⟩
  | _ => none

def PublicKey.ofWrappedDer? : Der.Value → Option PublicKey
  | .sequence [alg, .bits bytes] =>
    if isAlgorithm alg then (Der.read? bytes).bind PublicKey.ofDer? else none
  | _ => none

def PrivateKey.ofDer? : Der.Value → Option PrivateKey
  | .sequence [.integer 0, .integer n, .integer e, .integer d, .integer p, .integer q, .integer _,
      .integer _, .integer _] => some ⟨n, e, d, p, q⟩
  | _ => none

def isExtension : Der.Value → Bool
  | .tagged tag _ => tag &&& 0xc0 == 0x80
  | _ => false

def PrivateKey.ofWrappedDer? : Der.Value → Option PrivateKey
  | .sequence (.integer 0 :: alg :: .octets bytes :: rest) =>
    if isAlgorithm alg ∧ rest.all isExtension then
      (Der.read? bytes).bind PrivateKey.ofDer?
    else none
  | _ => none

def PublicKey.ofPem? (text : String) : Option PublicKey := do
  let armour ← Pem.read? text
  let value ← Der.read? armour.bytes
  let key ←
    if armour.label = wrappedPublicLabel then PublicKey.ofWrappedDer? value
    else if armour.label = barePublicLabel then PublicKey.ofDer? value
    else none
  if key.Sound ∧ key.bits ≤ greatestBits then some key else none

def PrivateKey.ofPem? (text : String) : Option PrivateKey := do
  let armour ← Pem.read? text
  let value ← Der.read? armour.bytes
  let key ←
    if armour.label = bareLabel then PrivateKey.ofDer? value
    else if armour.label = wrappedLabel then PrivateKey.ofWrappedDer? value
    else none
  if key.Sound then some key else none

def inverse? (a m : Nat) : Option Nat :=
  go (m.log2 * 2 + 2) a m 1 0
where
  go : Nat → Int → Int → Int → Int → Option Nat
    | 0, _, _, _, _ => none
    | fuel + 1, r, r', s, s' =>
      if r = 0 then if r' = 1 then some (s' % m).toNat else none
      else go fuel (r' % r) r (s' - r' / r * s) s

def PrivateKey.toDer (k : PrivateKey) : Der.Value :=
  .sequence [.integer 0, .integer k.modulus, .integer k.exponent, .integer k.secret,
    .integer k.prime1, .integer k.prime2, .integer (k.secret % (k.prime1 - 1)),
    .integer (k.secret % (k.prime2 - 1)), .integer ((inverse? k.prime2 k.prime1).getD 0)]

def PublicKey.toDer (k : PublicKey) : Der.Value :=
  .sequence [.integer k.modulus, .integer k.exponent]

def PrivateKey.toPem (k : PrivateKey) : String :=
  Pem.Armour.write { label := bareLabel, bytes := k.toDer.write }

def PublicKey.toPem (k : PublicKey) : String :=
  Pem.Armour.write { label := wrappedPublicLabel
                     bytes := (Der.Value.sequence [.sequence algorithm, .bits k.toDer.write]).write }

end SessionGate.Rsa
