import SessionGate.Encoding.Base64

/-!
Armoured keys: a label between two lines of dashes and, between them, the bytes in Base64, in lines
of exactly sixty-four characters. Text may stand before the opening line, nothing after the closing
one.
-/

namespace SessionGate.Pem

structure Armour where
  label : String
  bytes : List UInt8
deriving Repr, DecidableEq

def opening : List Char := "-----BEGIN ".toList

def closing : List Char := "-----END ".toList

def dashes : List Char := "-----".toList

def after? : List Char → List Char → Option (List Char)
  | [], text => some text
  | _ :: _, [] => none
  | c :: start, d :: text => if c = d then after? start text else none

def before? (ending text : List Char) : Option (List Char) :=
  (after? ending.reverse text.reverse).map List.reverse

def afterLineEnd? : List Char → Option (List Char)
  | '\r' :: '\n' :: rest => some rest
  | '\r' :: rest => some rest
  | '\n' :: rest => some rest
  | _ => none

def beforeLineEnd? (text : List Char) : Option (List Char) :=
  match text.reverse with
  | '\n' :: '\r' :: rest => some rest.reverse
  | '\n' :: rest => some rest.reverse
  | '\r' :: rest => some rest.reverse
  | _ => none

/-- What follows the first opening that stands at the start of a line. -/
def afterOpening? (text : List Char) : Option (List Char) :=
  match after? opening text with
  | some rest => some rest
  | none => search text
where
  search : List Char → Option (List Char)
    | [] => none
    | c :: rest =>
      if c.toNat = 0 then none
      else if c = '\n' then
        match after? opening rest with
        | some rest => some rest
        | none => search rest
      else search rest

def isLabelChar (c : Char) : Bool :=
  c.isUpper || c.isLower || c.isDigit || c == ' ' || c == '-'

def splitLabel? : List Char → List Char → Option (List Char × List Char)
  | _, [] => none
  | label, c :: rest =>
    match after? dashes (c :: rest) with
    | some rest => some (label.reverse, rest)
    | none => splitLabel? (c :: label) rest

def isBase64Char (c : Char) : Bool :=
  (Base64.standard.value? c).isSome || c == '='

/-- The characters of all lines. Every line but the last is full. -/
def joinLines? : Nat → List Char → Option (List Char)
  | 0, _ => none
  | fuel + 1, text =>
    let line := text.takeWhile isBase64Char
    let rest := text.drop line.length
    if line = [] ∨ 64 < line.length then none
    else match rest with
      | [] => some line
      | rest =>
        if line.length ≠ 64 then none
        else do
          let rest ← afterLineEnd? rest
          let more ← joinLines? fuel rest
          some (line ++ more)

def read? (text : String) : Option Armour := do
  let chars := text.toList
  let rest ← afterOpening? chars
  let (label, rest) ← splitLabel? [] rest
  if !label.all isLabelChar then none
  let rest ← afterLineEnd? rest
  let rest := (beforeLineEnd? rest).getD rest
  let rest ← before? (closing ++ label ++ dashes) rest
  let rest ← beforeLineEnd? rest
  let body ← joinLines? (rest.length + 1) rest
  let bytes ← Base64.decodePadded? Base64.standard (String.ofList body)
  some { label := String.ofList label, bytes }

/-- What follows the first opening, wherever it stands. -/
def afterAnyOpening? : List Char → Option (List Char)
  | [] => none
  | c :: rest => match after? opening (c :: rest) with
    | some rest => some rest
    | none => afterAnyOpening? rest

/-- The text before an armour has another opening, in the middle of a line. -/
def hasEarlierOpening (text : String) : Bool :=
  afterAnyOpening? text.toList != afterOpening? text.toList

/-- Lines of sixty-four characters, each with its line end. -/
def splitLines : Nat → List Char → List Char
  | 0, _ => []
  | _, [] => []
  | fuel + 1, chars => chars.take 64 ++ '\n' :: splitLines fuel (chars.drop 64)

def Armour.write (a : Armour) : String :=
  let body := (Base64.encodePadded Base64.standard a.bytes).toList
  String.ofList (opening ++ a.label.toList ++ dashes ++ ['\n'] ++ splitLines (body.length + 1) body
    ++ closing ++ a.label.toList ++ dashes ++ ['\n'])

end SessionGate.Pem
