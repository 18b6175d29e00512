import SessionGate.Http.MediaType
import SessionGate.Http.Target
import SessionGate.Service.Gate

/-!
Routes: which requests there are, which gates stand before each, and what each does. Gates stand
before a route whatever the method is; a method that the route does not take ends behind them.
-/

namespace SessionGate

inductive Route
  | health
  | login
  | logout
  | profile
  | subscription
  /-- Ends the session named by a part of the path, as it was written there. -/
  | revoke (part : String)
  | keys
deriving DecidableEq, Repr

namespace Route

def revokePath : List Char := "/api/admin/sessions/".toList

def ofPath? (path : List Char) : Option Route :=
  if path = "/api/health".toList then some health
  else if path = "/api/auth/login".toList then some login
  else if path = "/api/auth/logout".toList then some logout
  else if path = "/api/profile".toList then some profile
  else if path = "/api/subscription".toList then some subscription
  else if path = "/.well-known/jwks.json".toList then some keys
  else
    let part := path.drop revokePath.length
    if path.take revokePath.length = revokePath ∧ part ≠ [] ∧ '/' ∉ part then
      some (revoke (String.ofList part))
    else none

def gates : Route → List Gate
  | health | login | keys => []
  | logout => [.logout]
  | profile => [.session]
  | subscription => [.session, .subscription]
  | revoke _ => [.session, .role .admin]

def methods : Route → List String
  | health | profile | subscription | keys => ["GET", "HEAD"]
  | login | logout => ["POST"]
  | revoke _ => ["DELETE"]

/-- The methods of a route, as an answer to another method lists them. -/
def allow (r : Route) : String := ",".intercalate r.methods

end Route

/-- The longest body that is read, in bytes. -/
def longestBody : Nat := 2 * 1024 * 1024

namespace Deployment

def ok (data : Json) : Http.Response := .json 200 (envelope data).write

/-- The credentials in a login, or the answer to a request without any. -/
def readCredentials (req : Http.Request) : Except Http.Response Credentials :=
  let contentType := (Http.header? req.headers "content-type").filter Http.isVisible
  if !contentType.any Http.MediaType.isJson then
    .error (.text 415 "Expected request with \x60Content-Type: application/json\x60")
  else if longestBody < req.body.length then
    .error (.text 413 "Failed to buffer the request body: length limit exceeded")
  else match Credentials.ofBytes req.body with
    | .ok c => .ok c
    | .error .notJson => .error (.text 400 "Failed to parse the request body as JSON: syntax error")
    | .error .notCredentials =>
      .error (.text 422
        "Failed to deserialize the JSON body into the target type: no credentials")

def answerLogin (d : Deployment) (req : Http.Request) : Program Effect Http.Response := do
  match readCredentials req with
  | .error response => return response
  | .ok c => match ← (d.login c).run with
    | .error r => refuse r
    | .ok login =>
      Program.perform (.publish (.login login.profile.id))
      return ok login.toJson

def answerLogout (who : Identity) : Program Effect Http.Response := do
  match ← (invalidate who.session).run with
  | .error r => refuse r
  | .ok () =>
    Program.perform (.publish (.logout who.subject))
    return ok (.text logoutMessage)

def answerRevoke (part : String) (who : Identity) : Program Effect Http.Response := do
  match Http.percentDecode? part with
  | none => return .text 400 "Invalid URL: Invalid UTF-8 in path"
  | some session => match ← (invalidate session).run with
    | .error r => refuse r
    | .ok () =>
      Program.perform (.note (.revoked who.subject session))
      Program.perform (.publish (.revoked session who.subject))
      return ok (.text "Session revoked")

def subscriptionJson (who : Identity) : Json :=
  .object [Json.member "subjectId" (.integer who.subject.toInt),
    Json.member "subscriptionStatus" (Json.ofOption Subscription.toJson who.subscription)]

def keysResponse (d : Deployment) : Http.Response :=
  match d.authority.keySet? with
  | some keys => .json 200 keys.toJson.write
  | none => .json 404 (failureEnvelope "Not Found").write

def withIdentity (f : Identity → Program Effect Http.Response) : Handler
  | some who => f who
  | none => refuse .noSession

def handler (d : Deployment) (req : Http.Request) : Route → Handler
  | .health => fun _ => return ok (.text "healthy")
  | .login => fun _ => d.answerLogin req
  | .logout => withIdentity answerLogout
  | .profile => withIdentity fun who => return ok who.toJson
  | .subscription => withIdentity fun who => return ok (subscriptionJson who)
  | .revoke part => withIdentity (answerRevoke part)
  | .keys => fun _ => return d.keysResponse

def answer (d : Deployment) (req : Http.Request) (r : Route) : Program Effect Http.Response :=
  if req.method ∈ r.methods then Gate.stack d req.headers r.gates (d.handler req r) none
  else do
    let response ← Gate.stack d req.headers r.gates (fun _ => return .empty 405) none
    return { response with allow := some r.allow }

/-- A request for the head of a response gets no body, and neither does one that opens a tunnel and
succeeds, for which there is no choice of methods either. -/
def dropBody (method : String) (response : Http.Response) : Http.Response :=
  if method = "HEAD" then { response with body := "" }
  else if method = "CONNECT" ∧ response.status / 100 = 2 then
    { response with body := "", allow := none }
  else response

def serve (d : Deployment) (req : Http.Request) : Program Effect Http.Response :=
  match Route.ofPath? (Http.pathOf req.target) with
  | none => return .empty 404
  | some r => do return dropBody req.method (← d.answer req r)

end Deployment

end SessionGate
