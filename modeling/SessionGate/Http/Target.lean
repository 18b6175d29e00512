import SessionGate.Json.Reader

/-!
The path of a request's target, and the text that a part of a path stands for.
-/

namespace SessionGate.Http

def pathPart (chars : List Char) : List Char :=
  chars.takeWhile fun c => c != '?' && c != '#'

def afterScheme? : List Char → Option (List Char)
  | ':' :: '/' :: '/' :: rest => some rest
  | _ :: rest => afterScheme? rest
  | [] => none

/-- The path of a target, which may name its host in front. -/
def pathOf (target : String) : List Char :=
  match target.toList with
  | '/' :: rest => pathPart ('/' :: rest)
  | chars => match afterScheme? chars with
    | some rest => match pathPart (rest.dropWhile fun c => c != '/' && c != '?' && c != '#') with
      | [] => ['/']
      | path => path
    | none => pathPart chars

def hexPair? (high low : UInt8) : Option UInt8 := do
  some (UInt8.ofNat (16 * (← Json.hexValue? high) + (← Json.hexValue? low)))

/-- Bytes with every percent sign that is followed by two digits replaced. -/
def percentBytes : List UInt8 → List UInt8
  | [] => []
  | [b] => [b]
  | [a, b] => [a, b]
  | b :: high :: low :: rest =>
    if b = 0x25 then
      match hexPair? high low with
      | some c => c :: percentBytes rest
      | none => b :: percentBytes (high :: low :: rest)
    else b :: percentBytes (high :: low :: rest)

def percentDecode? (text : String) : Option String :=
  Json.textOfBytes? (percentBytes text.toUTF8.toList)

end SessionGate.Http
