import SessionGate.Json.Fields
import SessionGate.Json.Magnitude
import SessionGate.Json.Reader
import SessionGate.Json.Writer

/-!
Token headers: the algorithm of the signature and the id of its key. A header may carry other
members; those with a known name must have its form, and all others must be texts.
-/

namespace SessionGate.Token

inductive Algorithm
  | hs256 | hs384 | hs512
  | es256 | es384
  | rs256 | rs384 | rs512
  | ps256 | ps384 | ps512
  | edDsa
deriving DecidableEq, Repr

namespace Algorithm

def name : Algorithm → String
  | hs256 => "HS256"
  | hs384 => "HS384"
  | hs512 => "HS512"
  | es256 => "ES256"
  | es384 => "ES384"
  | rs256 => "RS256"
  | rs384 => "RS384"
  | rs512 => "RS512"
  | ps256 => "PS256"
  | ps384 => "PS384"
  | ps512 => "PS512"
  | edDsa => "EdDSA"

def all : List Algorithm :=
  [hs256, hs384, hs512, es256, es384, rs256, rs384, rs512, ps256, ps384, ps512, edDsa]

def ofName? (name : String) : Option Algorithm := all.find? (·.name = name)

theorem ofName?_name (a : Algorithm) : ofName? a.name = some a := by
  cases a <;> decide

end Algorithm

structure Header where
  algorithm : Algorithm
  keyId : Option String
deriving DecidableEq, Repr

namespace Header

def toJson (h : Header) : Json :=
  .object ([Json.member "typ" (.text "JWT"), Json.member "alg" (.text h.algorithm.name)]
    ++ (h.keyId.map fun id => Json.member "kid" (.text id)).toList)

def textNames : List String :=
  ["typ", "cty", "jku", "x5u", "x5t", "x5t#S256", "enc", "zip", "url", "nonce"]

def listNames : List String := ["x5c", "crit"]

def isOptionalText (v : Option Json) : Bool := (Json.optional? Json.text? v).isSome

def isOptionalTexts (v : Option Json) : Bool := (Json.optional? (Json.list? Json.text?) v).isSome

def commonKeyTexts : List String := ["use", "kid", "x5u", "x5t", "x5t#S256"]

def isField (names : List String) (check : Option Json → Bool)
    (members : List (Option String × Json)) : Bool :=
  names.all fun name => match Json.only? [name] members with
    | some v => check v
    | none => false

def isText (v : Option Json) : Bool := (v.bind Json.text?).isSome

def isWordOf (words : List String) (v : Option Json) : Bool :=
  match v.bind Json.word? with
  | some w => words.contains w
  | none => false

def curves : List String := ["P-256", "P-384", "P-521", "Ed25519"]

/-- An embedded key: common members, and those of one of four kinds of key. -/
def isKey : Json → Bool
  | .object members =>
    isField commonKeyTexts isOptionalText members
      && isField ["key_ops", "x5c"] isOptionalTexts members
      && isField ["alg"] (fun v => (Json.optional? Json.word? v).isSome) members
      && (isField ["kty"] (isWordOf ["EC"]) members && isField ["crv"] (isWordOf curves) members
          && isField ["x", "y"] isText members
        || isField ["kty"] (isWordOf ["RSA"]) members && isField ["n", "e"] isText members
        || isField ["kty"] (isWordOf ["oct"]) members && isField ["k"] isText members
        || isField ["kty"] (isWordOf ["OKP"]) members && isField ["crv"] (isWordOf curves) members
          && isField ["x"] isText members)
  | _ => false

def isOptionalKey : Option Json → Bool
  | none => true
  | some .null => true
  | some v => isKey v

def knownNames : List String := ["alg", "kid", "jwk"] ++ textNames ++ listNames

/-- The limit on containers inside one another where values are read in full. -/
def deepest : Nat := 127

def ofMembers? (members : List (Option String × Json)) : Option Header := do
  let algorithm ← (← (← Json.only? ["alg"] members)).word?
  let keyId ← Json.optional? Json.text? (← Json.only? ["kid"] members)
  if isField textNames isOptionalText members && isField listNames isOptionalTexts members
      && isField ["jwk"] isOptionalKey members
      && members.all fun (name, v) => (name.any knownNames.contains) || v.text?.isSome then
    some { algorithm := ← Algorithm.ofName? algorithm, keyId }
  else none

def ofJson? (v : Json) : Option Header :=
  match v with
  | .object members =>
    if v.isText && v.isFinite && v.depth ≤ deepest then ofMembers? members else none
  | _ => none

end Header

end SessionGate.Token
