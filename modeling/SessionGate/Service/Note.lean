import SessionGate.Refusal

/-!
Notes that the service takes of what it does. They name sessions and subjects, never a token, a
password or a hash.
-/

namespace SessionGate

inductive Level
  | debug
  | info
  | warn
  | error
deriving DecidableEq, Repr

def Level.name : Level → String
  | debug => "DEBUG"
  | info => "INFO"
  | warn => "WARN"
  | error => "ERROR"

inductive Note
  | unknownUser
  | passwordMismatch (subject : Int64)
  | persistFailed (session : String) (fault : Session.StoreFault)
  | created (session : String) (subject : Int64)
  | deleteFailed (session : String) (fault : Session.StoreFault)
  | invalidated (session : String)
  | legacyRejected (session : String)
  | legacyCorrupt (session : String)
  | legacyResolved (session : String)
  | readFailed (session : String) (fault : Session.StoreFault)
  | expiredLogout
  | roleMissing (subject : Int64) (role : Role)
  | subscriptionMissing (subject : Int64)
  | failed (refusal : Refusal)
  | rejected (refusal : Refusal)
  | revoked (admin : Int64) (session : String)
deriving DecidableEq, Repr

namespace Note

def level : Note → Level
  | unknownUser | passwordMismatch _ | legacyRejected _ | legacyResolved _ | expiredLogout
  | rejected _ => .debug
  | created _ _ | invalidated _ | revoked _ _ => .info
  | persistFailed _ _ | roleMissing _ _ | subscriptionMissing _ => .warn
  | deleteFailed _ _ | legacyCorrupt _ | readFailed _ _ | failed _ => .error

def withSession (text session : String) : String := text ++ " session_id=" ++ session

def withSubject (text : String) (subject : Int64) : String :=
  text ++ " subject_id=" ++ Text.writeInt64 subject

def text : Note → String
  | unknownUser => "Login attempt for unknown user"
  | passwordMismatch subject => withSubject "Password mismatch" subject
  | persistFailed session fault =>
    withSession "Failed to persist session" session ++ " error=" ++ fault.message
  | created session subject => withSubject (withSession "Session created" session) subject
  | deleteFailed session fault =>
    withSession "Failed to delete session" session ++ " error=" ++ fault.message
  | invalidated session => withSession "Session invalidated" session
  | legacyRejected session => withSession "Rejecting legacy session" session
  | legacyCorrupt session => withSession "Legacy session holds no subject id" session
  | legacyResolved session => withSession "Resolved legacy session" session
  | readFailed session fault =>
    withSession "Failed to read session" session ++ " error=" ++ fault.message
  | expiredLogout => "Logout with expired token"
  | roleMissing subject role =>
    withSubject "Role check failed" subject ++ " required=" ++ role.toText
  | subscriptionMissing subject => withSubject "Subscription check failed" subject
  | failed refusal => "Auth subsystem failure error=" ++ refusal.message
  | rejected refusal => "Request rejected error=" ++ refusal.message
  | revoked admin session =>
    withSession ("Session revoked by administrator admin_id=" ++ Text.writeInt64 admin) session

def line (n : Note) : String := n.level.name ++ " " ++ n.text

end Note

end SessionGate
