/-!
Sets of code points given by their runs: an increasing array of borders, at each of which a run
begins or ends.
-/

namespace SessionGate.Text

/-- A number lies in a run when an odd number of borders is not above it. -/
def inRuns (borders : Array Nat) (n : Nat) : Bool :=
  borders.countP (· ≤ n) % 2 = 1

end SessionGate.Text
