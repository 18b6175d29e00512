import SessionGate.Rsa.Signature

/-!
New RSA keys, drawn from a seed. The seed is stretched to as many bytes as the search reads; each
prime is the first number from a drawn one on that passes the tests.
-/

namespace SessionGate.Rsa

def newExponent : Nat := 65537

/-- Bytes stretched from a seed, under a label that keeps uses apart. -/
def stretch (seed : List UInt8) (label count : Nat) : List UInt8 :=
  ((List.range (count / 32 + 1)).flatMap fun i =>
    Sha256.digest (seed ++ Der.bytesOfNat (label + 1) ++ 0 :: Der.bytesOfNat (i + 1))).take count

def smallPrimes : List Nat :=
  (List.range 500).filter fun n => 1 < n && (List.range n).all fun d => d < 2 || n % d != 0

def smallProduct : Nat := smallPrimes.foldl (· * ·) 1

/-- One witness against the primality of `n`, where `n - 1` is `odd` doubled `twos` times. -/
def isWitness (n odd twos base : Nat) : Bool :=
  let x := powMod n base odd
  x != 1 && x != n - 1 && !squares twos x
where
  squares : Nat → Nat → Bool
    | 0, _ => false
    | k + 1, x =>
      let x := x * x % n
      x == n - 1 || squares k x

def splitTwos : Nat → Nat → Nat × Nat
  | 0, n => (n, 0)
  | fuel + 1, n =>
    if n % 2 = 0 then
      let (odd, twos) := splitTwos fuel (n / 2)
      (odd, twos + 1)
    else (n, 0)

def isProbablePrime (bases : List Nat) (n : Nat) : Bool :=
  n.gcd smallProduct == 1 &&
    let (odd, twos) := splitTwos (n.log2 + 1) (n - 1)
    bases.all fun base => !isWitness n odd twos base

/-- The first suitable prime at or after `n` in steps of two. -/
def findPrime? (bases : List Nat) : Nat → Nat → Option Nat
  | 0, _ => none
  | fuel + 1, n =>
    if (n - 1).gcd newExponent = 1 && isProbablePrime bases n then some n
    else findPrime? bases fuel (n + 2)

/-- A prime of half the key's length whose two highest bits are set. -/
def drawPrime? (seed : List UInt8) (label : Nat) : Option Nat :=
  let half := newBits / 2
  let n := Der.natOfBytes (stretch seed (2 * label) (half / 8))
  let bases := (List.range 16).map fun i =>
    Der.natOfBytes (stretch seed (2 * label + 1) (8 * (i + 1))) % (1 <<< 60) + 2
  findPrime? bases 20000 (n % (1 <<< (half - 2)) + 3 <<< (half - 2) ||| 1)

def generate? (seed : List UInt8) : Option PrivateKey := do
  let p ← drawPrime? seed 0
  let q ← drawPrime? seed 1
  let d ← inverse? newExponent ((p - 1) * (q - 1))
  let key : PrivateKey := ⟨p * q, newExponent, d, p, q⟩
  if key.Sound ∧ p ≠ q then some key else none

end SessionGate.Rsa
