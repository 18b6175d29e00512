import SessionGate.Json.Basic
import SessionGate.Number.Magnitude

/-!
Values whose numbers all fit a double. Where a value is read in full, a number that does not is a
fault even if nothing asks for it.
-/

namespace SessionGate.Json

mutual

/-- No number inside lies beyond every double. -/
def isFinite : Json → Bool
  | .integer n => !Number.isBeyondDouble n.natAbs 0
  | .decimal _ digits exponent => !Number.isBeyondDouble digits exponent
  | .array items => isFiniteItems items
  | .object members => isFiniteMembers members
  | _ => true

def isFiniteItems : List Json → Bool
  | [] => true
  | v :: rest => v.isFinite && isFiniteItems rest

def isFiniteMembers : List (Option String × Json) → Bool
  | [] => true
  | (_, v) :: rest => v.isFinite && isFiniteMembers rest

end

end SessionGate.Json
