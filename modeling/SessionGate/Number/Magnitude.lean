/-!
Numbers too large for a double, given as digits times a power of ten.
-/

namespace SessionGate.Number

/-- From here on a number rounds to infinity. -/
def infinityBound : Nat := 1 <<< 1024 - 1 <<< 970

/-- The number lies beyond every double. Far from the bound the count of digits decides. -/
def isBeyondDouble (digits : Nat) (exponent : Int) : Bool :=
  if digits = 0 then false
  else
    let size : Int := (Nat.toDigits 10 digits).length + exponent
    if 320 < size then true
    else if size < 300 then false
    else if 0 ≤ exponent then infinityBound ≤ digits * Nat.pow 10 exponent.toNat
    else infinityBound * Nat.pow 10 exponent.natAbs ≤ digits

end SessionGate.Number
