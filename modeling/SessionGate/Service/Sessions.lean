import SessionGate.Credentials
import SessionGate.Identity
import SessionGate.Password.Hash
import SessionGate.Service.Effect
import SessionGate.Token.Authority

/-!
The life of a session: credentials are checked, a token is issued, its record is stored for as long
as the token lasts, and from then on the record alone decides who the session is. Nothing but deleting
the record or its running out ends a session.
-/

namespace SessionGate

structure Deployment where
  authority : Token.Authority
  revealUnknownUsers : Bool
  acceptLegacy : Bool
  /-- The header, in lower case, whose assertion of a session is trusted. -/
  gatewayHeader : Option String

structure Login where
  token : String
  expiresAt : Instant
  profile : Profile

def Login.toJson (l : Login) : Json :=
  .object [Json.member "accessToken" (.text l.token),
    Json.member "expiresAt" (.text l.expiresAt.toText), Json.member "user" l.profile.toJson]

namespace Deployment

open Serve

/-- The profile of the account whose password was given. The hash goes no further than this. -/
def authenticate (username password : String) : Serve Profile := do
  match ← perform (.find username) with
  | .error fault => throw (.directory fault)
  | .ok none =>
    note .unknownUser
    throw .unknownUser
  | .ok (some account) =>
    if Password.opens password account.passwordHash then return account.profile
    else
      note (.passwordMismatch account.id)
      throw .wrongCredentials

def createToken (d : Deployment) (subject : Int64) : Serve Token.Issued := do
  let now ← perform .now
  match Token.Authority.expiry? now with
  | none => pastCalendar
  | some expiry =>
    let drawn ← perform .draw
    ExceptT.mk (pure (d.authority.issue now expiry (Token.sessionId drawn) subject))

def verifyToken (d : Deployment) (token : String) : Serve Token.Claims := do
  let now ← perform .now
  ExceptT.mk (pure (d.authority.verify now token))

/-- Stores the record behind a token for the time that the token has left. -/
def persist (profile : Profile) (issued : Token.Issued) : Serve Unit := do
  let left := issued.remaining (← perform .now)
  if left < 0 then throw (.store .badLifetime)
  match ← perform (.create issued.session (Session.Record.ofProfile profile) left.toNat) with
  | .error fault =>
    note (.persistFailed issued.session fault)
    throw (.store fault)
  | .ok () => note (.created issued.session profile.id)

def invalidate (id : String) : Serve Unit := do
  match ← perform (.delete id) with
  | .error fault =>
    note (.deleteFailed id fault)
    throw (.store fault)
  | .ok () => note (.invalidated id)

def legacySubject (text : String) : Except Text.DecimalFault Int64 :=
  Text.readInt64 (Text.trim text)

def resolve (d : Deployment) (id : String) : Serve Identity := do
  match ← perform (.read id) with
  | .ok (.record r) => return Identity.ofRecord id r
  | .ok (.scalar text) =>
    if !d.acceptLegacy then
      note (.legacyRejected id)
      throw .noSession
    match legacySubject text with
    | .error _ =>
      note (.legacyCorrupt id)
      throw (.store (.corrupt (.legacySubject text)))
    | .ok subject =>
      note (.legacyResolved id)
      return Identity.subjectOnly id subject
  | .error .notFound => throw .noSession
  | .error fault =>
    note (.readFailed id fault)
    throw (.store fault)

/-- An unknown user is told apart from a wrong password only where the deployment says so. -/
def hideUnknown (d : Deployment) : Refusal → Refusal
  | .unknownUser => if d.revealUnknownUsers then .unknownUser else .wrongCredentials
  | r => r

/-- Authenticates, issues and stores. The token is given away only once its record is stored. -/
def login (d : Deployment) (c : Credentials) : Serve Login := do
  let profile ← ExceptT.mk do
    return (← (authenticate c.username c.password).run).mapError d.hideUnknown
  let issued ← d.createToken profile.id
  persist profile issued
  return { token := issued.token, expiresAt := issued.expiresAt, profile }

end Deployment

end SessionGate
