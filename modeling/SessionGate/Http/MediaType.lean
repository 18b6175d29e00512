import SessionGate.Http.Message

/-!
Media types, as a content type header gives them: a type, a subtype that may end in a suffix, and
parameters with plain or quoted values.
-/

namespace SessionGate.Http.MediaType

def isQuotedChar (c : Char) : Bool := 0x20 ≤ c.toNat && c.toNat != 0x7f

/-- What follows a quoted value, given all after its first quote. The value has a character at least,
so a quote in front does not end it. -/
def afterQuoted? : List Char → Option (List Char)
  | [] => none
  | c :: rest =>
    match rest.dropWhile fun c => c != '"' && isQuotedChar c with
    | '"' :: rest => if isQuotedChar c then some rest else none
    | _ => none

def areParameters : Nat → List Char → Bool
  | 0, _ => false
  | fuel + 1, chars =>
    let chars := chars.dropWhile (· == ' ')
    if chars = [] then true
    else
      let name := chars.takeWhile isTokenChar
      match chars.drop name.length with
      | '=' :: '"' :: rest =>
        name ≠ [] && match afterQuoted? rest with
          | none => false
          | some rest => match rest.dropWhile (· == ' ') with
            | [] => true
            | ';' :: rest => areParameters fuel rest
            | _ => false
      | '=' :: rest =>
        let value := rest.takeWhile isTokenChar
        name ≠ [] && match rest.drop value.length with
          | [] => true
          | ';' :: rest => value ≠ [] && areParameters fuel rest
          | _ => false
      | _ => false

/-- A subtype, cut at its last plus sign that does not stand in front. -/
def splitSuffix (subtype : List Char) : List Char × Option (List Char) :=
  let suffix := (subtype.reverse.takeWhile (· ≠ '+')).reverse
  let kept := subtype.length - suffix.length - 1
  if suffix.length + 1 < subtype.length then (subtype.take kept, some suffix)
  else (subtype, none)

/-- JSON, or a subtype of an application that says it is JSON underneath. -/
def isJson (text : String) : Bool :=
  let chars := text.toList
  let kind := chars.takeWhile isTokenChar
  match chars.drop kind.length with
  | '/' :: rest =>
    let subtype := rest.takeWhile isTokenChar
    let after := rest.drop subtype.length
    let (name, suffix) := splitSuffix (subtype.map Char.toLower)
    kind.map Char.toLower = "application".toList && subtype ≠ []
      && (name = "json".toList || suffix = some "json".toList)
      && match after with
        | [] => true
        | ';' :: rest => areParameters (rest.length + 1) rest
        | _ => false
  | _ => false

end SessionGate.Http.MediaType
