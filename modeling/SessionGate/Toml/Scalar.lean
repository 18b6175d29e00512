import SessionGate.Number.Magnitude
import SessionGate.Toml.Basic

/-!
TOML values of a single word: truth values, integers in four bases, floats, and dates. A word is read
whole or not at all.
-/

namespace SessionGate.Toml

def digitIn (base : Nat) (c : Char) : Option Nat :=
  let v :=
    if '0' ≤ c ∧ c ≤ '9' then some (c.toNat - '0'.toNat)
    else if 'a' ≤ c ∧ c ≤ 'f' then some (c.toNat - 'a'.toNat + 10)
    else if 'A' ≤ c ∧ c ≤ 'F' then some (c.toNat - 'A'.toNat + 10)
    else none
  v.filter (· < base)

/-- Digits with single underscores between them, after a number already read. -/
def digitsAfter? (base : Nat) : Nat → List Char → Option Nat
  | n, [] => some n
  | n, '_' :: c :: rest => (digitIn base c).bind fun d => digitsAfter? base (n * base + d) rest
  | n, c :: rest => (digitIn base c).bind fun d => digitsAfter? base (n * base + d) rest

def digits? (base : Nat) : List Char → Option Nat
  | [] => none
  | c :: rest => (digitIn base c).bind fun d => digitsAfter? base d rest

def whole? (chars : List Char) : Option Nat :=
  match chars with
  | '0' :: _ :: _ => none
  | chars => digits? 10 chars

/-- Integers wider than any field are no values at all. -/
def inBounds (n : Int) : Option Int :=
  if -0x80000000000000000000000000000000 ≤ n ∧ n < 0x100000000000000000000000000000000 then some n
  else none

def integer? : List Char → Option Int
  | '0' :: 'x' :: rest => ((digits? 16 rest).map Int.ofNat).bind inBounds
  | '0' :: 'o' :: rest => ((digits? 8 rest).map Int.ofNat).bind inBounds
  | '0' :: 'b' :: rest => ((digits? 2 rest).map Int.ofNat).bind inBounds
  | '+' :: rest => ((whole? rest).map Int.ofNat).bind inBounds
  | '-' :: rest => ((whole? rest).map fun n => -(n : Int)).bind inBounds
  | chars => ((whole? chars).map Int.ofNat).bind inBounds

def signed (chars : List Char) : Bool × List Char :=
  match chars with
  | '+' :: rest => (false, rest)
  | '-' :: rest => (true, rest)
  | chars => (false, chars)

def exponent? : List Char → Option Int
  | [] => some 0
  | _ :: chars =>
    let (negative, digits) := signed chars
    (digits? 10 digits).map fun n => if negative then -n else n

/-- Digits and a power of ten: a whole part, then a fraction or an exponent or both. -/
def decimal? (chars : List Char) : Option (Nat × Int) := do
  let isMark := fun c => c == 'e' || c == 'E'
  let whole := chars.takeWhile fun c => c != '.' && !isMark c
  let _ ← whole? whole
  match chars.drop whole.length with
  | '.' :: rest =>
    let fraction := rest.takeWhile (!isMark ·)
    let _ ← digits? 10 fraction
    let digits ← digits? 10 (whole ++ fraction)
    some (digits, (← exponent? (rest.drop fraction.length)) - (fraction.filter (· ≠ '_')).length)
  | [] => none
  | rest => some (← digits? 10 whole, ← exponent? rest)

/-- Floats that lie beyond every double are no values, but infinity has a name of its own. -/
def isFloat (chars : List Char) : Bool :=
  let (_, chars) := signed chars
  if chars = ['i', 'n', 'f'] ∨ chars = ['n', 'a', 'n'] then true
  else match decimal? chars with
    | some (digits, exponent) => !Number.isBeyondDouble digits exponent
    | none => false

def two? : List Char → Option (Nat × List Char)
  | a :: b :: rest => do some (10 * (← digitIn 10 a) + (← digitIn 10 b), rest)
  | _ => none

def four? (chars : List Char) : Option (Nat × List Char) := do
  let (high, rest) ← two? chars
  let (low, rest) ← two? rest
  some (100 * high + low, rest)

def daysIn (year month : Nat) : Nat :=
  if month = 2 then if year % 4 = 0 ∧ (year % 100 ≠ 0 ∨ year % 400 = 0) then 29 else 28
  else if month = 4 ∨ month = 6 ∨ month = 9 ∨ month = 11 then 30
  else 31

def date? (chars : List Char) : Option (List Char) := do
  let (year, rest) ← four? chars
  let '-' :: rest := rest | none
  let (month, rest) ← two? rest
  let '-' :: rest := rest | none
  let (day, rest) ← two? rest
  if 1 ≤ month ∧ month ≤ 12 ∧ 1 ≤ day ∧ day ≤ daysIn year month then some rest else none

/-- A time of day, whose seconds may be left out, and what follows it. -/
def time? (chars : List Char) : Option (List Char) := do
  let (hour, rest) ← two? chars
  let ':' :: rest := rest | none
  let (minute, rest) ← two? rest
  if 23 < hour ∨ 59 < minute then none
  else match rest with
    | ':' :: rest => do
      let (sec, rest) ← two? rest
      if 60 < sec then none
      else match rest with
        | '.' :: rest =>
          let fraction := rest.takeWhile Char.isDigit
          if fraction = [] then none else some (rest.drop fraction.length)
        | rest => some rest
    | rest => some rest

def isOffset (chars : List Char) : Bool :=
  match chars with
  | ['Z'] | ['z'] => true
  | sign :: rest => (sign == '+' || sign == '-') && match two? rest with
    | some (hour, ':' :: rest) => hour ≤ 23 && match two? rest with
      | some (minute, []) => minute ≤ 59
      | _ => false
    | _ => false
  | [] => false

def isDatetime (chars : List Char) : Bool :=
  match date? chars with
  | some [] => true
  | some (mark :: rest) => (mark == 'T' || mark == 't' || mark == ' ') && match time? rest with
    | some [] => true
    | some rest => isOffset rest
    | none => false
  | none => time? chars = some []

def scalar? (chars : List Char) : Option Toml :=
  if chars = "true".toList then some (.boolean true)
  else if chars = "false".toList then some (.boolean false)
  else match integer? chars with
    | some n => some (.integer n)
    | none =>
      if isFloat chars then some (.float (String.ofList chars))
      else if isDatetime chars then some (.datetime (String.ofList chars))
      else none

end SessionGate.Toml
