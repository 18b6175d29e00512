import SessionGate.Session.Record
import SessionGate.Token.Header

/-!
Refusals: every reason for which the service turns something down, with the text for its own records
and the status and text for the client. What a client sees never depends on a fault inside.

Where a fault comes from a server or from another reader, only that it happened is kept: its own words
are left out, and a fixed text stands in the records.
-/

namespace SessionGate

inductive TokenFault
  | shape
  | base64
  | json
  | unexpectedAlgorithm (algorithm : Token.Algorithm)
  | unknownKey (id : String)
  | missingExpiry
  | wrongIssuer
  | wrongAudience
  | beforeIssue
  | other (text : String)
deriving DecidableEq, Repr

def TokenFault.message : TokenFault → String
  | shape => "InvalidToken"
  | base64 => "Base64 error"
  | json => "JSON error"
  | unexpectedAlgorithm algorithm => "unexpected algorithm " ++ algorithm.name
  | unknownKey id => "unknown key id '" ++ id ++ "'"
  | missingExpiry => "Missing required claim: exp"
  | wrongIssuer => "InvalidIssuer"
  | wrongAudience => "InvalidAudience"
  | beforeIssue => "token used before issue time"
  | other text => text

inductive AssertionFault
  | notAscii
  | base64
  | json
  | emptySession
  | other (text : String)
deriving DecidableEq, Repr

def AssertionFault.message : AssertionFault → String
  | notAscii => "header is not ASCII"
  | base64 => "Base64 error"
  | json => "JSON error"
  | emptySession => "empty session id"
  | other text => text

inductive RowFault
  | roleOutOfRange (number : Int)
  | account (fault : AccountFault)
  | other (text : String)
deriving DecidableEq, Repr

def RowFault.message : RowFault → String
  | roleOutOfRange number => "role out of range: " ++ Text.writeInt number
  | account fault => fault.message
  | other text => text

inductive DirectoryFault
  | unavailable
  | corrupt (fault : RowFault)
deriving DecidableEq, Repr

def DirectoryFault.message : DirectoryFault → String
  | unavailable => "database error: server unavailable"
  | corrupt fault => "corrupt user row: " ++ fault.message

inductive InternalFault
  | unsigned
  | other (text : String)
deriving DecidableEq, Repr

def InternalFault.message : InternalFault → String
  | unsigned => "failed to sign token"
  | other text => text

inductive Refusal
  | unknownUser
  | wrongCredentials
  | missingCredentials
  | wrongSignature
  | expired
  | invalidToken (fault : TokenFault)
  | noSession
  | malformedAssertion (fault : AssertionFault)
  | forbidden
  | store (fault : Session.StoreFault)
  | directory (fault : DirectoryFault)
  | internal (fault : InternalFault)
deriving DecidableEq, Repr

namespace Refusal

def message : Refusal → String
  | unknownUser => "user not found"
  | wrongCredentials => "invalid username or password"
  | missingCredentials => "missing or malformed Authorization header"
  | wrongSignature => "invalid token signature"
  | expired => "token has expired"
  | invalidToken fault => "invalid token: " ++ fault.message
  | noSession => "session not found"
  | malformedAssertion fault => "malformed identity assertion: " ++ fault.message
  | forbidden => "forbidden"
  | store fault => "session store error: " ++ fault.message
  | directory fault => "user directory error: " ++ fault.message
  | internal fault => fault.message

def isInternal : Refusal → Bool
  | store _ | directory _ | internal _ => true
  | _ => false

def status : Refusal → Nat
  | unknownUser => 404
  | wrongCredentials | missingCredentials | wrongSignature | invalidToken _ | expired
  | noSession => 401
  | malformedAssertion _ => 400
  | forbidden => 403
  | store _ | directory _ | internal _ => 500

def publicMessage : Refusal → String
  | unknownUser => "User not found"
  | wrongCredentials => "Invalid username or password"
  | wrongSignature | invalidToken _ => "Token is invalid"
  | expired => "Token is expired"
  | missingCredentials | noSession => "Unauthorized"
  | malformedAssertion _ => "Bad Request"
  | forbidden => "Forbidden access"
  | store _ | directory _ | internal _ => "Internal Server Error"

end Refusal

end SessionGate
