/-!
Decimal integers of sixty-four bits. Reading stops at the first fault from the left: a character that
is no digit, or the digit with which the number leaves its range.
-/

namespace SessionGate.Text

inductive DecimalFault
  | empty
  | invalidDigit
  | tooLarge
  | tooSmall
deriving DecidableEq, Repr

def DecimalFault.message : DecimalFault → String
  | empty => "cannot parse integer from empty string"
  | invalidDigit => "invalid digit found in string"
  | tooLarge => "number too large to fit in target type"
  | tooSmall => "number too small to fit in target type"

def digitValue (c : Char) : Nat := c.toNat - '0'.toNat

def digitsUpTo (limit : Nat) (beyond : DecimalFault) : Nat → List Char → Except DecimalFault Nat
  | n, [] => .ok n
  | n, c :: rest =>
    if c.isDigit then
      let n := 10 * n + digitValue c
      if n ≤ limit then digitsUpTo limit beyond n rest else .error beyond
    else .error .invalidDigit

def readInt64Chars : List Char → Except DecimalFault Int64
  | [] => .error .empty
  | ['+'] => .error .invalidDigit
  | ['-'] => .error .invalidDigit
  | '+' :: digits => (digitsUpTo 0x7fffffffffffffff .tooLarge 0 digits).map fun n => Int64.ofInt n
  | '-' :: digits => (digitsUpTo 0x8000000000000000 .tooSmall 0 digits).map fun n => Int64.ofInt (-n)
  | digits => (digitsUpTo 0x7fffffffffffffff .tooLarge 0 digits).map fun n => Int64.ofInt n

def readInt64 (text : String) : Except DecimalFault Int64 :=
  readInt64Chars text.toList

/-- A small natural number with an optional plus sign. -/
def readNatUpTo (limit : Nat) (text : String) : Option Nat :=
  match text.toList with
  | [] => none
  | ['+'] => none
  | '+' :: digits => (digitsUpTo limit .tooLarge 0 digits).toOption
  | digits => (digitsUpTo limit .tooLarge 0 digits).toOption

def writeInt (n : Int) : String :=
  match n with
  | .ofNat n => Nat.repr n
  | .negSucc n => "-" ++ Nat.repr (n + 1)

def writeInt64 (n : Int64) : String := writeInt n.toInt

end SessionGate.Text
