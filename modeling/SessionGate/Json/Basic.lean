/-!
JSON values. Integers are kept apart from all other numbers: those with a point or an exponent, and
the negative zero, are digits times a power of ten. A string literal may hold no text at all: a lone
surrogate or stray bytes pass as a literal but cannot be read as text.
-/

namespace SessionGate

inductive Json
  | null
  | bool (b : Bool)
  | integer (n : Int)
  | decimal (negative : Bool) (digits : Nat) (exponent : Int)
  | string (text : Option String)
  | array (items : List Json)
  | object (members : List (Option String × Json))
deriving Repr, Inhabited

namespace Json

def text (s : String) : Json := .string (some s)

def member (name : String) (value : Json) : Option String × Json := (some name, value)

def ofOption (f : α → Json) : Option α → Json
  | some a => f a
  | none => .null

mutual

/-- Containers inside one another, the outermost counted. -/
def depth : Json → Nat
  | .array items => depthItems items + 1
  | .object members => depthMembers members + 1
  | _ => 0

def depthItems : List Json → Nat
  | [] => 0
  | v :: rest => max v.depth (depthItems rest)

def depthMembers : List (Option String × Json) → Nat
  | [] => 0
  | (_, v) :: rest => max v.depth (depthMembers rest)

end

mutual

def isText : Json → Bool
  | .string text => text.isSome
  | .array items => isTextItems items
  | .object members => isTextMembers members
  | _ => true

def isTextItems : List Json → Bool
  | [] => true
  | v :: rest => v.isText && isTextItems rest

def isTextMembers : List (Option String × Json) → Bool
  | [] => true
  | (name, v) :: rest => name.isSome && v.isText && isTextMembers rest

end

end Json

end SessionGate
