/-!
The distinguished encoding of values: a tag, the shortest form of a length, and the content. Reading
accepts only what writing produces: `Value.write` beside `read?`.
-/

namespace SessionGate.Der

inductive Value
  | integer (n : Nat)
  | bits (bytes : List UInt8)
  | octets (bytes : List UInt8)
  | null
  | objectId (bytes : List UInt8)
  | sequence (items : List Value)
  | tagged (tag : UInt8) (content : List UInt8)
deriving Repr

def integerTag : UInt8 := 0x02
def bitsTag : UInt8 := 0x03
def octetsTag : UInt8 := 0x04
def nullTag : UInt8 := 0x05
def objectIdTag : UInt8 := 0x06
def sequenceTag : UInt8 := 0x30

def natOfBytes (bytes : List UInt8) : Nat :=
  bytes.foldl (fun n b => 256 * n + b.toNat) 0

/-- Big-endian digits before those already given; the first of them is not zero. -/
def prependBytes (n : Nat) (rest : List UInt8) : List UInt8 :=
  if n = 0 then rest else prependBytes (n / 256) (UInt8.ofNat n :: rest)
termination_by n
decreasing_by omega

/-- The fewest big-endian bytes; none for zero. -/
def bytesOfNat (n : Nat) : List UInt8 := prependBytes n []

def writeLength (n : Nat) : List UInt8 :=
  if n < 128 then [UInt8.ofNat n]
  else
    let bytes := bytesOfNat n
    UInt8.ofNat (128 + bytes.length) :: bytes

def writeTagged (tag : UInt8) (content : List UInt8) : List UInt8 :=
  tag :: writeLength content.length ++ content

/-- One zero byte keeps a number with a high first bit positive. -/
def integerContent (n : Nat) : List UInt8 :=
  match bytesOfNat n with
  | [] => [0]
  | b :: rest => if b < 128 then b :: rest else 0 :: b :: rest

mutual

def Value.write : Value → List UInt8
  | .integer n => writeTagged integerTag (integerContent n)
  | .bits bytes => writeTagged bitsTag (0 :: bytes)
  | .octets bytes => writeTagged octetsTag bytes
  | .null => [nullTag, 0]
  | .objectId bytes => writeTagged objectIdTag bytes
  | .sequence items => writeTagged sequenceTag (writeAll items)
  | .tagged tag content => writeTagged tag content

def writeAll : List Value → List UInt8
  | [] => []
  | v :: rest => v.write ++ writeAll rest

end

/-- A length in its shortest form, of at most four bytes. -/
def readLength? : List UInt8 → Option (Nat × List UInt8)
  | [] => none
  | b :: rest =>
    if b < 128 then some (b.toNat, rest)
    else
      let count := b.toNat - 128
      let bytes := rest.take count
      let n := natOfBytes bytes
      if 1 ≤ count ∧ count ≤ 4 ∧ bytes.length = count ∧ writeLength n = b :: bytes then
        some (n, rest.drop count)
      else none

/-- A tag, its content, and what follows. -/
def readTagged? : List UInt8 → Option (UInt8 × List UInt8 × List UInt8)
  | [] => none
  | tag :: rest => do
    let (n, rest) ← readLength? rest
    if n ≤ rest.length then some (tag, rest.take n, rest.drop n) else none

def readInteger? (content : List UInt8) : Option Nat :=
  let n := natOfBytes content
  if integerContent n = content then some n else none

/-- The values of a whole text, nested as deep as the fuel allows. -/
def readAll? : Nat → List UInt8 → Option (List Value)
  | _, [] => some []
  | 0, _ :: _ => none
  | fuel + 1, bytes => do
    let (tag, content, rest) ← readTagged? bytes
    let value ←
      if tag = integerTag then (readInteger? content).map .integer
      else if tag = bitsTag then
        match content with
        | 0 :: bytes => some (.bits bytes)
        | _ => none
      else if tag = octetsTag then some (.octets content)
      else if tag = nullTag then if content = [] then some .null else none
      else if tag = objectIdTag then some (.objectId content)
      else if tag = sequenceTag then (readAll? fuel content).map .sequence
      else some (.tagged tag content)
    let values ← readAll? fuel rest
    some (value :: values)

def read? (bytes : List UInt8) : Option Value :=
  match readAll? bytes.length bytes with
  | some [value] => some value
  | _ => none

end SessionGate.Der
