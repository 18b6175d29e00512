import SessionGate.Json.Basic
import SessionGate.Text.Decimal

/-!
Writing JSON values: without any blank, or indented by two spaces a level.
-/

namespace SessionGate.Json

def hexDigit (n : Nat) : Char :=
  if n < 10 then Char.ofNat ('0'.toNat + n) else Char.ofNat ('a'.toNat + (n - 10))

def escapeChar (c : Char) : List Char :=
  if c = '"' then ['\\', '"']
  else if c = '\\' then ['\\', '\\']
  else if c = '\n' then ['\\', 'n']
  else if c = '\r' then ['\\', 'r']
  else if c = '\t' then ['\\', 't']
  else if c.toNat = 8 then ['\\', 'b']
  else if c.toNat = 12 then ['\\', 'f']
  else if c.toNat < 32 then ['\\', 'u', '0', '0', hexDigit (c.toNat / 16), hexDigit (c.toNat % 16)]
  else [c]

/-- A literal without a text is written as a lone surrogate. -/
def literal : Option String → List Char
  | some text => '"' :: text.toList.flatMap escapeChar ++ ['"']
  | none => "\"\\ud800\"".toList

def decimalChars (negative : Bool) (digits : Nat) (exponent : Int) : List Char :=
  (if negative then ['-'] else []) ++ (Nat.repr digits).toList ++ 'e' :: (Text.writeInt exponent).toList

mutual

def chars : Json → List Char
  | .null => "null".toList
  | .bool true => "true".toList
  | .bool false => "false".toList
  | .integer n => (Text.writeInt n).toList
  | .decimal negative digits exponent => decimalChars negative digits exponent
  | .string text => literal text
  | .array [] => ['[', ']']
  | .array (v :: rest) => '[' :: v.chars ++ charsItems rest
  | .object [] => ['\x7b', '\x7d']
  | .object ((name, v) :: rest) => '\x7b' :: literal name ++ ':' :: v.chars ++ charsMembers rest

def charsItems : List Json → List Char
  | [] => [']']
  | v :: rest => ',' :: v.chars ++ charsItems rest

def charsMembers : List (Option String × Json) → List Char
  | [] => ['\x7d']
  | (name, v) :: rest => ',' :: literal name ++ ':' :: v.chars ++ charsMembers rest

end

def write (v : Json) : String := String.ofList v.chars

def lineBreak (level : Nat) : List Char := '\n' :: List.replicate (2 * level) ' '

mutual

def indented (level : Nat) : Json → List Char
  | .array [] => ['[', ']']
  | .array (v :: rest) =>
    '[' :: lineBreak (level + 1) ++ v.indented (level + 1) ++ indentedItems level rest
  | .object [] => ['\x7b', '\x7d']
  | .object ((name, v) :: rest) =>
    '\x7b' :: lineBreak (level + 1) ++ literal name ++ [':', ' '] ++ v.indented (level + 1)
      ++ indentedMembers level rest
  | .null => "null".toList
  | .bool true => "true".toList
  | .bool false => "false".toList
  | .integer n => (Text.writeInt n).toList
  | .decimal negative digits exponent => decimalChars negative digits exponent
  | .string text => literal text

def indentedItems (level : Nat) : List Json → List Char
  | [] => lineBreak level ++ [']']
  | v :: rest =>
    ',' :: lineBreak (level + 1) ++ v.indented (level + 1) ++ indentedItems level rest

def indentedMembers (level : Nat) : List (Option String × Json) → List Char
  | [] => lineBreak level ++ ['\x7d']
  | (name, v) :: rest =>
    ',' :: lineBreak (level + 1) ++ literal name ++ [':', ' '] ++ v.indented (level + 1)
      ++ indentedMembers level rest

end

def writeIndented (v : Json) : String := String.ofList (v.indented 0)

end SessionGate.Json
