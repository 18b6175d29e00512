import SessionGate.Session.Record

/-!
Identities: who a request acts as, drawn from the live session behind it. A session that holds a bare
subject gives an identity without role or subscription, which passes no check of either.
-/

namespace SessionGate

structure Identity where
  session : String
  subject : Int64
  role : Option Role
  subscription : Option Subscription
  name : Option String
  email : Option String
deriving DecidableEq, Repr

namespace Identity

def ofRecord (session : String) (r : Session.Record) : Identity where
  session := session
  subject := r.subject
  role := some r.role
  subscription := some r.subscription
  name := r.name
  email := r.email

def subjectOnly (session : String) (subject : Int64) : Identity where
  session := session
  subject := subject
  role := none
  subscription := none
  name := none
  email := none

def hasRole (i : Identity) (r : Role) : Bool := i.role == some r

def isSubscribed (i : Identity) : Bool := i.subscription == some .active

/-- The session stays out of what a client sees. -/
def toJson (i : Identity) : Json :=
  .object [Json.member "subjectId" (.integer i.subject.toInt),
    Json.member "role" (Json.ofOption Role.toJson i.role),
    Json.member "subscriptionStatus" (Json.ofOption Subscription.toJson i.subscription),
    Json.member "name" (Json.ofOption .text i.name),
    Json.member "email" (Json.ofOption .text i.email)]

@[simp] theorem hasRole_subjectOnly (session : String) (subject : Int64) (r : Role) :
    (subjectOnly session subject).hasRole r = false := rfl

@[simp] theorem isSubscribed_subjectOnly (session : String) (subject : Int64) :
    (subjectOnly session subject).isSubscribed = false := rfl

end Identity

end SessionGate
