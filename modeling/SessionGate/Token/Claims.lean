import SessionGate.Json.Fields
import SessionGate.Json.Reader
import SessionGate.Json.Writer

/-!
Claims: what a token says about a session. A payload is read once as claims and once more for the
registered names alone, which is where a payload written as an array shows its age: its items are
then taken in the order of those names.
-/

namespace SessionGate.Token

structure Claims where
  subject : Int64
  session : String
  issuedAt : Int64
  expiresAt : Int64
  issuer : Option String
  audience : Option String
  subjectText : Option String
deriving DecidableEq, Repr

namespace Claims

def fieldNames : List (List String) :=
  [["subjectId"], ["sessionId"], ["iat"], ["exp"], ["iss"], ["aud"], ["sub"]]

def optionalMember (name : String) (value : Option String) : List (Option String × Json) :=
  (value.map fun text => Json.member name (.text text)).toList

def toJson (c : Claims) : Json :=
  .object ([Json.member "subjectId" (.integer c.subject.toInt),
      Json.member "sessionId" (.text c.session),
      Json.member "iat" (.integer c.issuedAt.toInt), Json.member "exp" (.integer c.expiresAt.toInt)]
    ++ optionalMember "iss" c.issuer ++ optionalMember "aud" c.audience
    ++ optionalMember "sub" c.subjectText)

def ofJson? (v : Json) : Option Claims :=
  match v.fields? fieldNames with
  | some [some subject, some session, some issuedAt, some expiresAt, issuer, audience,
      subjectText] => do
    some { subject := ← subject.int64?, session := ← session.text?
           issuedAt := ← issuedAt.int64?, expiresAt := ← expiresAt.int64?
           issuer := ← Json.optional? Json.text? issuer
           audience := ← Json.optional? Json.text? audience
           subjectText := ← Json.optional? Json.text? subjectText }
  | _ => none

end Claims

/-- The registered names of a payload, as far as they are checked. -/
structure Registered where
  hasExpiry : Bool
  issuer : Option String
  audience : Option String
deriving DecidableEq, Repr

namespace Registered

def fieldNames : List (List String) := [["exp"], ["nbf"], ["sub"], ["iss"], ["aud"]]

def isExpiry : Option Json → Bool
  | some (.integer n) => 0 ≤ n
  | some (.decimal negative digits _) => !negative || digits == 0
  | _ => false

/-- A start of validity is not looked at, but it must not be a container with anything in it. -/
def isStart : Option Json → Bool
  | some (.array (_ :: _)) => false
  | some (.object (_ :: _)) => false
  | _ => true

def ofFields? : List (Option Json) → Option Registered
  | [expiry, start, _, issuer, audience] =>
    if isStart start then
      some { hasExpiry := isExpiry expiry
             issuer := issuer.bind Json.text?
             audience := audience.bind Json.text? }
    else none
  | _ => none

/-- An array has an item for every name. -/
def ofJson? (v : Json) : Option Registered :=
  match v with
  | .array items => if items.length = 5 then ofFields? (items.map some) else none
  | v => (v.fields? fieldNames).bind ofFields?

end Registered

end SessionGate.Token
