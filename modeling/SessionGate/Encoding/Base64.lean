/-!
Base64 over byte lists. An encoding is fixed by its sixty-four characters; texts are read strictly:
no foreign character, no lone final character, and no stray bits after the last byte.
-/

namespace SessionGate.Base64

structure Alphabet where
  chars : List Char
  length_chars : chars.length = 64 := by decide +kernel
  nodup_chars : chars.Nodup := by decide +kernel

def Alphabet.char (a : Alphabet) (v : Fin 64) : Char :=
  a.chars.get (v.cast a.length_chars.symm)

def Alphabet.value? (a : Alphabet) (c : Char) : Option (Fin 64) :=
  (a.chars.idxOf? c).bind fun i => if h : i < 64 then some ⟨i, h⟩ else none

def neighbours (first : Char) (count : Nat) : List Char :=
  (List.range count).map fun i => Char.ofNat (first.toNat + i)

def letters : List Char := neighbours 'A' 26 ++ neighbours 'a' 26

def digits : List Char := neighbours '0' 10

def url : Alphabet where
  chars := letters ++ digits ++ ['-', '_']

def standard : Alphabet where
  chars := letters ++ digits ++ ['+', '/']

/-- The alphabet of stored password hashes. -/
def crypt : Alphabet where
  chars := ['.', '/'] ++ letters ++ digits

def sextet (n : Nat) : Fin 64 :=
  ⟨n % 64, Nat.mod_lt _ (by decide)⟩

def sextets : List UInt8 → List (Fin 64)
  | b0 :: b1 :: b2 :: rest =>
    let n := b0.toNat * 65536 + b1.toNat * 256 + b2.toNat
    sextet (n / 262144) :: sextet (n / 4096) :: sextet (n / 64) :: sextet n :: sextets rest
  | [b0, b1] =>
    let n := (b0.toNat * 256 + b1.toNat) * 4
    [sextet (n / 4096), sextet (n / 64), sextet n]
  | [b0] =>
    let n := b0.toNat * 16
    [sextet (n / 64), sextet n]
  | [] => []

def ofSextets? : List (Fin 64) → Option (List UInt8)
  | s0 :: s1 :: s2 :: s3 :: rest =>
    let n := ((s0.val * 64 + s1.val) * 64 + s2.val) * 64 + s3.val
    (ofSextets? rest).map fun bytes =>
      UInt8.ofNat (n / 65536) :: UInt8.ofNat (n / 256) :: UInt8.ofNat n :: bytes
  | [s0, s1, s2] =>
    let n := (s0.val * 64 + s1.val) * 64 + s2.val
    if n % 4 = 0 then some [UInt8.ofNat (n / 1024), UInt8.ofNat (n / 4)] else none
  | [s0, s1] =>
    let n := s0.val * 64 + s1.val
    if n % 16 = 0 then some [UInt8.ofNat (n / 16)] else none
  | [_] => none
  | [] => some []

/-- Without padding. -/
def encode (a : Alphabet) (bytes : List UInt8) : String :=
  String.ofList ((sextets bytes).map a.char)

def decodeChars? (a : Alphabet) (chars : List Char) : Option (List UInt8) :=
  (chars.mapM a.value?).bind ofSextets?

/-- Without padding. -/
def decode? (a : Alphabet) (text : String) : Option (List UInt8) :=
  decodeChars? a text.toList

/-- Filled up with equals signs to groups of four. -/
def encodePadded (a : Alphabet) (bytes : List UInt8) : String :=
  let text := encode a bytes
  text ++ String.ofList (List.replicate ((4 - text.length % 4) % 4) '=')

/-- Exactly the padding that fills the last group is required. -/
def decodePadded? (a : Alphabet) (text : String) : Option (List UInt8) :=
  let body := (text.toList.reverse.dropWhile (· == '=')).reverse
  if text.toList = body ++ List.replicate ((4 - body.length % 4) % 4) '=' then
    decodeChars? a body
  else none

end SessionGate.Base64
