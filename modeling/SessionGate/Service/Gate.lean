import SessionGate.Http.Message
import SessionGate.Service.Sessions

/-!
Gates in front of a handler. A session gate finds out who a request acts as, from a trusted assertion
or from a bearer token and always from the store; a capability gate looks at what the gates before it
found.
-/

namespace SessionGate

inductive Gate
  | session
  /-- Asks for a live session, but takes an expired token for a logout that is done. -/
  | logout
  | role (r : Role)
  | subscription
deriving DecidableEq, Repr

def envelope (data : Json) : Json :=
  .object [Json.member "success" (.bool true), Json.member "data" data, Json.member "error" .null]

def failureEnvelope (message : String) : Json :=
  .object [Json.member "success" (.bool false), Json.member "data" .null,
    Json.member "error" (.text message)]

def Refusal.response (r : Refusal) : Http.Response :=
  .json r.status (failureEnvelope r.publicMessage).write

/-- The token of an authorization header: the second of exactly two words, after the scheme. -/
def bearerToken (headers : Http.Headers) : Except Refusal String :=
  match Http.header? headers "authorization" with
  | none => .error .missingCredentials
  | some value =>
    if Http.isVisible value then
      match Text.words value.toList with
      | [scheme, token] =>
        if scheme.map Char.toLower = "bearer".toList then .ok (String.ofList token)
        else .error .missingCredentials
      | _ => .error .missingCredentials
    else .error .missingCredentials

namespace Assertion

/-- The session may stand under either name, but not under both. -/
def names : List (List String) := [["sessionId", "Uuid"]]

def sessionOf (v : Json) : Except AssertionFault String :=
  match v.fields? names with
  | some [some id] => match id.text? with
    | some id => if id = "" then .error .emptySession else .ok id
    | none => .error .json
  | _ => .error .json

/-- Blanks around an assertion and equals signs at its end do not count. -/
def body (value : String) : List Char :=
  ((Text.trimChars value.toList).reverse.dropWhile (· == '=')).reverse

def read (value : String) : Except AssertionFault String :=
  if Http.isVisible value then
    match Base64.decodeChars? Base64.url (body value) with
    | none => .error .base64
    | some bytes => match Json.read? bytes with
      | none => .error .json
      | some v => sessionOf v
  else .error .notAscii

/-- A value of nothing but blanks asserts nothing. -/
def isBlank (value : String) : Bool :=
  value.toList.all fun c =>
    c == ' ' || c == '\t' || c == '\n' || c == '\r' || c.toNat == 12

end Assertion

namespace Deployment

/-- The assertion that decides, if the deployment trusts one and the request carries it. -/
def assertion? (d : Deployment) (headers : Http.Headers) : Option String := do
  let value ← Http.header? headers (← d.gatewayHeader)
  if Assertion.isBlank value then none else some value

def claimedSession (d : Deployment) (headers : Http.Headers) : Serve String :=
  match d.assertion? headers with
  | some value => ExceptT.mk (pure ((Assertion.read value).mapError .malformedAssertion))
  | none => do
    let token ← ExceptT.mk (pure (bearerToken headers))
    return (← d.verifyToken token).session

def authorize (d : Deployment) (headers : Http.Headers) : Serve Identity := do
  d.resolve (← d.claimedSession headers)

end Deployment

/-- Turns a request down, with a note of why. -/
def refuse (r : Refusal) : Program Effect Http.Response := do
  Program.perform (.note (if r.isInternal then .failed r else .rejected r))
  return r.response

def logoutMessage : String := "Logout successful"

/-- What is left to do for a request once it is known who it acts as. -/
abbrev Handler := Option Identity → Program Effect Http.Response

namespace Gate

def guard (d : Deployment) (headers : Http.Headers) : Gate → Handler → Handler
  | session, next, _ => do
    match ← (d.authorize headers).run with
    | .ok who => next (some who)
    | .error r => refuse r
  | logout, next, _ => do
    match ← (d.authorize headers).run with
    | .ok who => next (some who)
    | .error .expired =>
      Program.perform (.note .expiredLogout)
      return .json 200 (envelope (.text logoutMessage)).write
    | .error r => refuse r
  | role _, _, none => refuse .noSession
  | role r, next, some who => do
    if who.hasRole r then next (some who)
    else
      Program.perform (.note (.roleMissing who.subject r))
      refuse .forbidden
  | subscription, _, none => refuse .noSession
  | subscription, next, some who => do
    if who.isSubscribed then next (some who)
    else
      Program.perform (.note (.subscriptionMissing who.subject))
      refuse .forbidden

def stack (d : Deployment) (headers : Http.Headers) (gates : List Gate) (handler : Handler) :
    Handler :=
  gates.foldr (guard d headers) handler

end Gate

end SessionGate
