import SessionGate.Json.Basic
import SessionGate.Text.Decimal

/-!
Reading JSON values from bytes. Every step takes the bytes ahead and gives a value with the bytes
after it; `read?` asks for one value and nothing but blanks around it.
-/

namespace SessionGate.Json

def byte (c : Char) : UInt8 := UInt8.ofNat c.toNat

def isBlankByte (b : UInt8) : Bool := b == 0x20 || b == 0x0a || b == 0x0d || b == 0x09

def skipBlanks (bytes : List UInt8) : List UInt8 := bytes.dropWhile isBlankByte

/-- A piece of a string literal: a byte that stands for itself, or an escaped sixteen-bit unit. -/
inductive Piece
  | byte (b : UInt8)
  | unit (n : Nat)
deriving DecidableEq, Repr

def hexValue? (b : UInt8) : Option Nat :=
  if 0x30 ≤ b ∧ b ≤ 0x39 then some (b.toNat - 0x30)
  else if 0x61 ≤ b ∧ b ≤ 0x66 then some (b.toNat - 0x61 + 10)
  else if 0x41 ≤ b ∧ b ≤ 0x46 then some (b.toNat - 0x41 + 10)
  else none

def escape? (b : UInt8) : Option UInt8 :=
  if b = byte '"' ∨ b = byte '\\' ∨ b = byte '/' then some b
  else if b = byte 'b' then some 0x08
  else if b = byte 'f' then some 0x0c
  else if b = byte 'n' then some 0x0a
  else if b = byte 'r' then some 0x0d
  else if b = byte 't' then some 0x09
  else none

/-- Pieces up to the closing quote, in reverse order before those already seen. -/
def readPieces? : List Piece → List UInt8 → Option (List Piece × List UInt8)
  | _, [] => none
  | seen, 0x22 :: rest => some (seen.reverse, rest)
  | seen, 0x5c :: 0x75 :: h3 :: h2 :: h1 :: h0 :: rest =>
    match hexValue? h3, hexValue? h2, hexValue? h1, hexValue? h0 with
    | some d3, some d2, some d1, some d0 =>
      readPieces? (.unit (((d3 * 16 + d2) * 16 + d1) * 16 + d0) :: seen) rest
    | _, _, _, _ => none
  | seen, 0x5c :: e :: rest =>
    match escape? e with
    | some b => readPieces? (.byte b :: seen) rest
    | none => none
  | seen, b :: rest => if b < 0x20 ∨ b = 0x5c then none else readPieces? (.byte b :: seen) rest

def scalarBytes (n : Nat) : List UInt8 := (String.singleton (Char.ofNat n)).toUTF8.toList

/-- The bytes of a literal, units joined in pairs where they must be. -/
def pieceBytes? : List Piece → Option (List UInt8)
  | [] => some []
  | .byte b :: rest => (pieceBytes? rest).map (b :: ·)
  | .unit n :: rest =>
    if n < 0xd800 ∨ 0xdfff < n then (pieceBytes? rest).map (scalarBytes n ++ ·)
    else if 0xdc00 ≤ n then none
    else match rest with
      | .unit m :: rest =>
        if 0xdc00 ≤ m ∧ m ≤ 0xdfff then
          (pieceBytes? rest).map
            (scalarBytes (0x10000 + (n - 0xd800) * 0x400 + (m - 0xdc00)) ++ ·)
        else none
      | _ => none

def textOfBytes? (bytes : List UInt8) : Option String :=
  String.fromUTF8? ⟨bytes.toArray⟩

def pieceText? (pieces : List Piece) : Option String :=
  (pieceBytes? pieces).bind textOfBytes?

/-- What follows the opening quote. -/
def readLiteral? (bytes : List UInt8) : Option (Option String × List UInt8) :=
  (readPieces? [] bytes).map fun (pieces, rest) => (pieceText? pieces, rest)

def isDigitByte (b : UInt8) : Bool := 0x30 ≤ b && b ≤ 0x39

def natOfDigits (digits : List UInt8) : Nat :=
  digits.foldl (fun n b => 10 * n + (b.toNat - 0x30)) 0

def readFraction? (bytes : List UInt8) : Option (List UInt8 × List UInt8) :=
  match bytes with
  | 0x2e :: rest =>
    let digits := rest.takeWhile isDigitByte
    if digits = [] then none else some (digits, rest.drop digits.length)
  | _ => some ([], bytes)

def readSign : List UInt8 → Bool × List UInt8
  | 0x2b :: rest => (false, rest)
  | 0x2d :: rest => (true, rest)
  | bytes => (false, bytes)

def readExponent? (bytes : List UInt8) : Option (Option Int × List UInt8) :=
  match bytes with
  | e :: rest =>
    if e = byte 'e' ∨ e = byte 'E' then
      let (negative, rest) := readSign rest
      let digits := rest.takeWhile isDigitByte
      let n : Int := natOfDigits digits
      if digits = [] then none
      else some (some (if negative then -n else n), rest.drop digits.length)
    else some (none, bytes)
  | [] => some (none, [])

/-- A number after its sign: without leading zeros, and an integer where only digits are written. -/
def readNumber? (negative : Bool) (bytes : List UInt8) : Option (Json × List UInt8) := do
  let digits := bytes.takeWhile isDigitByte
  if digits = [] ∨ (digits.head? = some 0x30 ∧ 1 < digits.length) then none
  let (fraction, rest) ← readFraction? (bytes.drop digits.length)
  let (exponent, rest) ← readExponent? rest
  let n := natOfDigits digits
  if fraction = [] ∧ exponent = none ∧ ¬(negative ∧ n = 0) then
    some (.integer (if negative then -n else n), rest)
  else
    some (.decimal negative (natOfDigits (digits ++ fraction))
      (exponent.getD 0 - fraction.length), rest)

def afterWord? : List Char → List UInt8 → Option (List UInt8)
  | [], bytes => some bytes
  | _ :: _, [] => none
  | c :: word, b :: bytes => if b = byte c then afterWord? word bytes else none

mutual

/-- One value after blanks. The fuel bounds values inside or after one another. -/
def readValue? : Nat → List UInt8 → Option (Json × List UInt8)
  | 0, _ => none
  | fuel + 1, bytes =>
    match skipBlanks bytes with
    | 0x22 :: rest => (readLiteral? rest).map fun (text, rest) => (.string text, rest)
    | 0x5b :: rest =>
      match skipBlanks rest with
      | 0x5d :: rest => some (.array [], rest)
      | rest => do
        let (v, rest) ← readValue? fuel rest
        let (items, rest) ← readItems? fuel rest
        some (.array (v :: items), rest)
    | 0x7b :: rest =>
      match skipBlanks rest with
      | 0x7d :: rest => some (.object [], rest)
      | rest => do
        let (m, rest) ← readMember? fuel rest
        let (members, rest) ← readMembers? fuel rest
        some (.object (m :: members), rest)
    | 0x6e :: rest => (afterWord? "ull".toList rest).map fun rest => (.null, rest)
    | 0x74 :: rest => (afterWord? "rue".toList rest).map fun rest => (.bool true, rest)
    | 0x66 :: rest => (afterWord? "alse".toList rest).map fun rest => (.bool false, rest)
    | 0x2d :: rest => readNumber? true rest
    | bytes => readNumber? false bytes

def readItems? : Nat → List UInt8 → Option (List Json × List UInt8)
  | 0, _ => none
  | fuel + 1, bytes =>
    match skipBlanks bytes with
    | 0x5d :: rest => some ([], rest)
    | 0x2c :: rest => do
      let (v, rest) ← readValue? fuel rest
      let (items, rest) ← readItems? fuel rest
      some (v :: items, rest)
    | _ => none

def readMember? : Nat → List UInt8 → Option ((Option String × Json) × List UInt8)
  | 0, _ => none
  | fuel + 1, bytes =>
    match skipBlanks bytes with
    | 0x22 :: rest => do
      let (name, rest) ← readLiteral? rest
      match skipBlanks rest with
      | 0x3a :: rest => do
        let (v, rest) ← readValue? fuel rest
        some ((name, v), rest)
      | _ => none
    | _ => none

def readMembers? : Nat → List UInt8 → Option (List (Option String × Json) × List UInt8)
  | 0, _ => none
  | fuel + 1, bytes =>
    match skipBlanks bytes with
    | 0x7d :: rest => some ([], rest)
    | 0x2c :: rest => do
      let (m, rest) ← readMember? fuel rest
      let (members, rest) ← readMembers? fuel rest
      some (m :: members, rest)
    | _ => none

end

def fuelFor (bytes : List UInt8) : Nat := 2 * bytes.length + 2

def read? (bytes : List UInt8) : Option Json := do
  let (v, rest) ← readValue? (fuelFor bytes) bytes
  if skipBlanks rest = [] then some v else none

def readText? (text : String) : Option Json := read? text.toUTF8.toList

end SessionGate.Json
