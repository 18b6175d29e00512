import SessionGate.Clock.Calendar
import SessionGate.Hash.Hmac
import SessionGate.Refusal
import SessionGate.Rsa.Signature
import SessionGate.Token.Claims
import SessionGate.Token.KeySet

/-!
The authority that issues session tokens and checks them. It signs in one of two modes, with a shared
secret or with a private key, and checks a token in a fixed order: header, key, signature, payload,
registered names, and last its window of time.
-/

namespace SessionGate.Token

inductive Keys
  | shared (secret : List UInt8)
  | asymmetric (keyId : String) (signing : Rsa.PrivateKey) (published : KeySet)

/-- The longest clock skew in seconds that can be told: its milliseconds are counted in 64 bits. -/
def longestSkew : Nat := 9223372036854775

/-- A clock skew in whole seconds. -/
structure Skew where
  seconds : Int
  told : seconds.natAbs ≤ longestSkew
deriving DecidableEq, Repr

structure Authority where
  keys : Keys
  issuer : Option String
  audience : Option String
  /-- The clock skew that is tolerated. -/
  skew : Skew

/-- A signed token and what is needed to store its session. -/
structure Issued where
  token : String
  session : String
  issuedAt : Instant
  expiresAt : Instant
deriving DecidableEq, Repr

/-- Lifetime of a token and of the session behind it, in seconds. -/
def lifetimeSeconds : Int := 24 * 3600

def lifetime : Int := lifetimeSeconds * second

def leastSecretLength : Nat := 32

/-- A session id from a drawn number: the number in hexadecimal digits, with six bits fixed. -/
def sessionId (drawn : BitVec 128) : String :=
  let n := (drawn &&& ~~~ (0xf000#128 <<< 64) &&& ~~~ (0xc#128 <<< 60))
    ||| (0x4000#128 <<< 64) ||| (0x8#128 <<< 60)
  let digits := (List.range 32).map fun i => Json.hexDigit (n.toNat >>> (4 * (31 - i)) % 16)
  String.ofList (digits.take 8 ++ '-' :: (digits.drop 8).take 4 ++ '-' :: (digits.drop 12).take 4
    ++ '-' :: (digits.drop 16).take 4 ++ '-' :: digits.drop 20)

namespace Issued

/-- The time that is left, negative once it is over. -/
def remaining (i : Issued) (now : Instant) : Int := i.expiresAt.since now

/-- What diagnostics show of an issued token, which is never the token. -/
def describe (i : Issued) : String :=
  "IssuedToken \x7b token: \"<redacted>\", session_id: " ++ Text.quoted i.session
    ++ ", issued_at: " ++ i.issuedAt.toText ++ ", expires_at: " ++ i.expiresAt.toText ++ " \x7d"

end Issued

def splitLastDot? (chars : List Char) : Option (List Char × List Char) :=
  let last := (chars.reverse.takeWhile (· ≠ '.')).reverse
  if last.length < chars.length then some (chars.take (chars.length - last.length - 1), last)
  else none

/-- A token's text in parts. What is signed is all before the last full stop. -/
structure Segments where
  signed : List Char
  header : List Char
  payload : List Char
  signature : List Char
deriving DecidableEq, Repr

def Segments.ofText? (token : String) : Option Segments := do
  let (signed, signature) ← splitLastDot? token.toList
  let (header, payload) ← splitLastDot? signed
  some { signed, header, payload, signature }

def charBytes (chars : List Char) : List UInt8 := (String.ofList chars).toUTF8.toList

def encodeJson (v : Json) : List Char := (Base64.encode Base64.url (charBytes v.chars)).toList

namespace Authority

/-- Seconds of clock skew that are tolerated. -/
def leeway (a : Authority) : Int := a.skew.seconds

def algorithm (a : Authority) : Algorithm :=
  match a.keys with
  | .shared _ => .hs256
  | .asymmetric _ _ _ => .rs256

def keySet? (a : Authority) : Option KeySet :=
  match a.keys with
  | .shared _ => none
  | .asymmetric _ _ published => some published

/-- An empty issuer or audience is none. -/
def withNames (a : Authority) (issuer audience : Option String) : Authority :=
  { a with issuer := issuer.filter (· ≠ ""), audience := audience.filter (· ≠ "") }

def header (a : Authority) : Header where
  algorithm := a.algorithm
  keyId := match a.keys with
    | .shared _ => none
    | .asymmetric id _ _ => some id

def sign? (a : Authority) (message : List UInt8) : Option (List UInt8) :=
  match a.keys with
  | .shared secret => some (Hmac.code secret message)
  | .asymmetric _ key _ => key.sign? message

def expiry? (now : Instant) : Option Instant := now.add? lifetime

def claims (a : Authority) (now expiry : Instant) (session : String) (subject : Int64) :
    Claims where
  subject := subject
  session := session
  issuedAt := Int64.ofInt now.seconds
  expiresAt := Int64.ofInt expiry.seconds
  issuer := a.issuer
  audience := a.audience
  subjectText := some (Text.writeInt64 subject)

def tokenOf? (a : Authority) (c : Claims) : Option String := do
  let signed := encodeJson a.header.toJson ++ '.' :: encodeJson c.toJson
  let signature ← a.sign? (charBytes signed)
  some (String.ofList (signed ++ '.' :: (Base64.encode Base64.url signature).toList))

def issue (a : Authority) (now expiry : Instant) (session : String) (subject : Int64) :
    Except Refusal Issued :=
  match a.tokenOf? (a.claims now expiry session subject) with
  | some token => .ok { token, session, issuedAt := now.floor, expiresAt := expiry.floor }
  | none => .error (.internal .unsigned)

def checker (a : Authority) (h : Header) :
    Except TokenFault (List UInt8 → List UInt8 → Bool) :=
  match a.keys with
  | .shared secret => .ok fun message signature => signature == Hmac.code secret message
  | .asymmetric active _ published =>
    let id := h.keyId.getD active
    match published.find? id with
    | some entry => .ok fun message signature => match entry.key? with
      | some key => key.accepts message signature
      | none => false
    | none => .error (.unknownKey id)

def readHeader (chars : List Char) : Except TokenFault Header :=
  match Base64.decodeChars? Base64.url chars with
  | none => .error .base64
  | some bytes => match (Json.read? bytes).bind Header.ofJson? with
    | some h => .ok h
    | none => .error .json

/-- The claims of a payload whose signature fits, checked against the registered names. -/
def readPayload (a : Authority) (bytes : List UInt8) : Except TokenFault Claims :=
  match Json.read? bytes with
  | none => .error .json
  | some v => match Claims.ofJson? v, Registered.ofJson? v with
    | some c, some r =>
      if !r.hasExpiry then .error .missingExpiry
      else if a.issuer.isSome && r.issuer.isSome && r.issuer != a.issuer then .error .wrongIssuer
      else if a.audience.isSome && r.audience.isSome && r.audience != a.audience then
        .error .wrongAudience
      else .ok c
    | _, _ => .error .json

/-- The last second of a token's window. It is counted in 64 bits, and past the greatest number it begins
again at the least. -/
def lastSecond (a : Authority) (c : Claims) : Int64 := c.expiresAt + Int64.ofInt a.leeway

/-- The window of a token, in whole seconds. A time of the calendar and a skew have a sum within 64 bits,
unlike the end that a token gives itself. -/
def checkWindow (a : Authority) (now : Instant) (c : Claims) : Except Refusal Unit :=
  if now.seconds + a.leeway < c.issuedAt.toInt then .error (.invalidToken .beforeIssue)
  else if (a.lastSecond c).toInt < now.seconds then .error .expired
  else .ok ()

def verify (a : Authority) (now : Instant) (token : String) : Except Refusal Claims := do
  let some s := Segments.ofText? token | throw (.invalidToken .shape)
  let h ← (readHeader s.header).mapError .invalidToken
  if h.algorithm ≠ a.algorithm then throw (.invalidToken (.unexpectedAlgorithm h.algorithm))
  let fits ← (a.checker h).mapError .invalidToken
  let some signature := Base64.decodeChars? Base64.url s.signature | throw .wrongSignature
  if !fits (charBytes s.signed) signature then throw .wrongSignature
  let some payload := Base64.decodeChars? Base64.url s.payload | throw .wrongSignature
  let c ← (a.readPayload payload).mapError .invalidToken
  a.checkWindow now c
  return c

end Authority

end SessionGate.Token
