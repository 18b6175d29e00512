import SessionGate.Json.Basic

/-!
Reading records from JSON values. A record is an object with named members or an array of its fields
in order; names are texts, no field comes twice, and members under other names do not matter.
-/

namespace SessionGate.Json

/-- The one value under some names, if there is any. Two such values are a fault. -/
def only? (names : List String) (members : List (Option String × Json)) : Option (Option Json) :=
  match members.filter fun (name, _) => names.any (some · == name) with
  | [] => some none
  | [(_, v)] => some (some v)
  | _ => none

/-- The fields of an object, each under one of its names. -/
def members? (fields : List (List String)) (members : List (Option String × Json)) :
    Option (List (Option Json)) :=
  if members.all fun (name, _) => name.isSome then fields.mapM (only? · members) else none

/-- The fields of a record; those that are missing are `none`. -/
def fields? (fields : List (List String)) : Json → Option (List (Option Json))
  | .object members => members? fields members
  | .array items =>
    if items.length ≤ fields.length then
      some (items.map some ++ List.replicate (fields.length - items.length) none)
    else none
  | _ => none

def text? : Json → Option String
  | .string text => text
  | _ => none

/-- One of a choice of words, alone or as the name of a null. -/
def word? : Json → Option String
  | .string text => text
  | .object [(name, .null)] => name
  | _ => none

def int64? : Json → Option Int64
  | .integer n =>
    if -0x8000000000000000 ≤ n ∧ n < 0x8000000000000000 then some (Int64.ofInt n) else none
  | _ => none

def optional? (read : Json → Option α) : Option Json → Option (Option α)
  | none => some none
  | some .null => some none
  | some v => (read v).map some

def list? (read : Json → Option α) : Json → Option (List α)
  | .array items => items.mapM read
  | _ => none

end SessionGate.Json
