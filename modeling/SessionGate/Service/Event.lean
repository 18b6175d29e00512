import SessionGate.Clock.Calendar
import SessionGate.Json.Writer
import SessionGate.Text.Decimal

/-!
Events that are published when sessions begin and end.
-/

namespace SessionGate

inductive Event
  | login (subject : Int64)
  | logout (subject : Int64)
  | revoked (session : String) (admin : Int64)
deriving DecidableEq, Repr

namespace Event

def topic : Event → String
  | login _ => "auth.login"
  | logout _ => "auth.logout"
  | revoked _ _ => "auth.session_revoked"

def payload : Event → Json
  | login subject => .object [Json.member "subjectId" (.integer subject.toInt)]
  | logout subject => .object [Json.member "subjectId" (.integer subject.toInt)]
  | revoked session admin =>
    .object [Json.member "revokedBy" (.integer admin.toInt), Json.member "sessionId" (.text session)]

def toJson (e : Event) (published : Instant) : Json :=
  .object [Json.member "topic" (.text e.topic), Json.member "payload" e.payload,
    Json.member "timestamp" (.text published.toOffsetText)]

end Event

end SessionGate
