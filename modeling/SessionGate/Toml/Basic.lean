/-!
TOML values. Floats and dates are kept as they were written: nothing here computes with them.
-/

namespace SessionGate

inductive Toml
  | string (text : String)
  | integer (n : Int)
  | float (lexeme : String)
  | boolean (b : Bool)
  | datetime (lexeme : String)
  | array (items : List Toml)
  | table (entries : List (String × Toml))
deriving Repr, Inhabited

end SessionGate
