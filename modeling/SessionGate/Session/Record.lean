import SessionGate.Account.Basic

/-!
Session records and the field maps they are stored as. A map is read by its own grammar: the subject
and the role are decimal texts, the subscription is a word, and empty names and emails count as
absent. A record that is written reads back, up to empty names and emails.
-/

namespace SessionGate.Session

/-- What a store keeps for one session that is logged in. -/
structure Record where
  subject : Int64
  role : Role
  subscription : Subscription
  name : Option String
  email : Option String
deriving DecidableEq, Repr

def Record.ofProfile (p : Profile) : Record where
  subject := p.id
  role := p.role
  subscription := p.subscription
  name := some p.name
  email := some p.email

inductive RecordFault
  | missingField (name : String)
  | subject (fault : Text.DecimalFault)
  | account (fault : AccountFault)
  | legacySubject (text : String)
  | unexpectedKind (kind : String)
  | other (text : String)
deriving DecidableEq, Repr

def subjectField : String := "subjectId"
def roleField : String := "role"
def subscriptionField : String := "subscriptionStatus"
def nameField : String := "name"
def emailField : String := "email"

def RecordFault.message : RecordFault → String
  | missingField name => "missing field " ++ name
  | subject fault => subjectField ++ ": " ++ fault.message
  | account fault => fault.message
  | legacySubject text => "legacy subject id " ++ Text.quoted text
  | unexpectedKind kind => "unexpected redis type " ++ kind ++ " for session key"
  | other text => text

/-- Texts by field name; of two under one name the first counts. -/
abbrev Fields := List (String × String)

def Record.toFields (r : Record) : Fields :=
  [(subjectField, Text.writeInt64 r.subject), (roleField, r.role.toText),
    (subscriptionField, r.subscription.toText), (nameField, r.name.getD ""),
    (emailField, r.email.getD "")]

def required (fields : Fields) (name : String) : Except RecordFault String :=
  match fields.lookup name with
  | some text => .ok text
  | none => .error (.missingField name)

def optional (fields : Fields) (name : String) : Option String :=
  (fields.lookup name).filter (· ≠ "")

def Record.ofFields (fields : Fields) : Except RecordFault Record := do
  let subject ← (Text.readInt64 (← required fields subjectField)).mapError .subject
  let role ← (Role.ofText (← required fields roleField)).mapError .account
  let subscription ←
    (Subscription.ofText (← required fields subscriptionField)).mapError .account
  return { subject, role, subscription
           name := optional fields nameField
           email := optional fields emailField }

inductive StoreFault
  | notFound
  | badLifetime
  | corrupt (fault : RecordFault)
  /-- The server did not answer; what it or its connection says about that is left out. -/
  | unavailable
deriving DecidableEq, Repr

def StoreFault.message : StoreFault → String
  | notFound => "session not found"
  | badLifetime => "session ttl must be positive"
  | corrupt fault => "corrupt session record: " ++ fault.message
  | unavailable => "redis: server unavailable"

inductive Stored
  | record (r : Record)
  | scalar (text : String)
deriving DecidableEq, Repr

end SessionGate.Session
