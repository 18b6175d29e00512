/-!
The Blowfish cipher, as a password hash uses it: a state of eighteen round words and four boxes,
filled from the digits of π and then stirred by a key and a salt.
-/

namespace SessionGate.Blowfish

/-- Arctangent of `1 / x` in units of `1 / scale`: the alternating series, until a term vanishes. -/
def arctanInverse (scale x : Nat) : Int :=
  go scale.log2 (scale / x) 1 1 0
where
  go : Nat → Nat → Nat → Int → Int → Int
    | 0, _, _, _, sum => sum
    | fuel + 1, power, odd, sign, sum =>
      if power = 0 then sum
      else go fuel (power / (x * x)) (odd + 2) (-sign) (sum + sign * (power / odd))

def wordCount : Nat := 18 + 4 * 256

/-- The first binary digits of the fraction of π, with sixty-four more that absorb rounding. -/
def piDigits : Nat :=
  let scale := 1 <<< (32 * wordCount + 64)
  let pi := 16 * arctanInverse scale 5 - 4 * arctanInverse scale 239
  (pi - 3 * scale).toNat >>> 64

def piWord (i : Nat) : UInt32 :=
  UInt32.ofNat (piDigits >>> (32 * (wordCount - 1 - i)))

structure State where
  rounds : Vector UInt32 18
  box0 : Vector UInt32 256
  box1 : Vector UInt32 256
  box2 : Vector UInt32 256
  box3 : Vector UInt32 256

def initial : State where
  rounds := Vector.ofFn fun i => piWord i
  box0 := Vector.ofFn fun i => piWord (18 + i)
  box1 := Vector.ofFn fun i => piWord (274 + i)
  box2 := Vector.ofFn fun i => piWord (530 + i)
  box3 := Vector.ofFn fun i => piWord (786 + i)

@[inline] def look (box : Vector UInt32 256) (b : UInt8) : UInt32 :=
  box.get ⟨b.toNat, b.toNat_lt⟩

@[inline] def State.mix (s : State) (x : UInt32) : UInt32 :=
  let hi := look s.box0 (x >>> 24).toUInt8 + look s.box1 (x >>> 16).toUInt8
  (hi ^^^ look s.box2 (x >>> 8).toUInt8) + look s.box3 x.toUInt8

structure Block where
  left : UInt32
  right : UInt32
deriving DecidableEq, Repr

/-- Two rounds at a time, so that the halves need no swap. -/
def State.encrypt (s : State) (b : Block) : Block :=
  go 8 (by decide) (b.left ^^^ s.rounds[0]) b.right
where
  go (n : Nat) (h : n ≤ 8) (l r : UInt32) : Block :=
    match n with
    | 0 => ⟨r ^^^ s.rounds[17], l⟩
    | n + 1 =>
      let r := r ^^^ s.mix l ^^^ s.rounds[2 * (7 - n) + 1]
      let l := l ^^^ s.mix r ^^^ s.rounds[2 * (7 - n) + 2]
      go n (by omega) l r

/-- The two halves that a salt contributes next, and the salt that follows. -/
structure Salt where
  word0 : UInt32
  word1 : UInt32
  word2 : UInt32
  word3 : UInt32
deriving DecidableEq, Repr

def Salt.zero : Salt := ⟨0, 0, 0, 0⟩

def Salt.rotate (t : Salt) : Salt := ⟨t.word2, t.word3, t.word0, t.word1⟩

/-- The block, salted and encrypted: the next two words of the state. -/
@[inline] def State.chain (s : State) (t : Salt) (b : Block) : Block :=
  s.encrypt ⟨b.left ^^^ t.word0, b.right ^^^ t.word1⟩

/-- Replaces the state word by word with the encrypted chain of salted blocks. -/
def State.refill (s : State) (t : Salt) : State :=
  let (s, t, b) := Nat.fold 9
    (fun i h (s, t, b) =>
      let b := s.chain t b
      ({ s with rounds := (s.rounds.set (2 * i) b.left).set (2 * i + 1) b.right }, t.rotate, b))
    (s, t, ⟨0, 0⟩)
  let (s, t, b) := Nat.fold 128
    (fun i h (s, t, b) =>
      let b := s.chain t b
      ({ s with box0 := (s.box0.set (2 * i) b.left).set (2 * i + 1) b.right }, t.rotate, b))
    (s, t, b)
  let (s, t, b) := Nat.fold 128
    (fun i h (s, t, b) =>
      let b := s.chain t b
      ({ s with box1 := (s.box1.set (2 * i) b.left).set (2 * i + 1) b.right }, t.rotate, b))
    (s, t, b)
  let (s, t, b) := Nat.fold 128
    (fun i h (s, t, b) =>
      let b := s.chain t b
      ({ s with box2 := (s.box2.set (2 * i) b.left).set (2 * i + 1) b.right }, t.rotate, b))
    (s, t, b)
  let (s, _, _) := Nat.fold 128
    (fun i h (s, t, b) =>
      let b := s.chain t b
      ({ s with box3 := (s.box3.set (2 * i) b.left).set (2 * i + 1) b.right }, t.rotate, b))
    (s, t, b)
  s

/-- Stirs a key of eighteen words and a salt into the state. -/
def State.expand (s : State) (t : Salt) (key : Vector UInt32 18) : State :=
  { s with rounds := s.rounds.zipWith (· ^^^ ·) key }.refill t

end SessionGate.Blowfish
