import SessionGate.Json.Fields
import SessionGate.Json.Reader
import SessionGate.Json.Writer
import SessionGate.Text.Blank
import SessionGate.Text.Quoted

/-!
Accounts, their roles and their subscriptions, and the profile that may leave the credential check.
A role is a small number; a subscription is one of two words.
-/

namespace SessionGate

inductive AccountFault
  | roleNotNumber (text : String)
  | unknownRole (number : Nat)
  | unknownSubscription (text : String)
deriving DecidableEq, Repr

def AccountFault.message : AccountFault → String
  | roleNotNumber text => "role is not an integer: " ++ Text.quoted text
  | unknownRole number => "unknown role " ++ Nat.repr number
  | unknownSubscription text => "unknown subscription status " ++ Text.quoted text

inductive Role
  | admin
  | member
deriving DecidableEq, Repr

namespace Role

def number : Role → Nat
  | admin => 1
  | member => 2

def name : Role → String
  | admin => "Admin"
  | member => "Member"

def ofNat? : Nat → Option Role
  | 1 => some admin
  | 2 => some member
  | _ => none

def toText (r : Role) : String := Nat.repr r.number

/-- A number of one byte with blanks around it. -/
def ofText (text : String) : Except AccountFault Role :=
  match Text.readNatUpTo 255 (Text.trim text) with
  | none => .error (.roleNotNumber text)
  | some n => match ofNat? n with
    | some r => .ok r
    | none => .error (.unknownRole n)

def toJson (r : Role) : Json := .integer r.number

def ofJson? : Json → Option Role
  | .integer n => if 0 ≤ n then ofNat? n.toNat else none
  | _ => none

theorem ofNat?_eq_some_iff {n : Nat} {r : Role} : ofNat? n = some r ↔ n = r.number := by
  unfold ofNat?
  cases r <;> split <;> simp_all [number]

theorem ofJson?_toJson (r : Role) : ofJson? r.toJson = some r := by
  cases r <;> rfl

end Role

inductive Subscription
  | active
  | inactive
deriving DecidableEq, Repr

namespace Subscription

def toText : Subscription → String
  | active => "ACTIVE"
  | inactive => "INACTIVE"

def name : Subscription → String
  | active => "Active"
  | inactive => "Inactive"

def ofText? (text : String) : Option Subscription :=
  if text = "ACTIVE" then some active
  else if text = "INACTIVE" then some inactive
  else none

def ofText (text : String) : Except AccountFault Subscription :=
  match ofText? text with
  | some s => .ok s
  | none => .error (.unknownSubscription text)

def toJson (s : Subscription) : Json := .text s.toText

def ofJson? (v : Json) : Option Subscription :=
  v.word?.bind ofText?

theorem ofText?_eq_some_iff {text : String} {s : Subscription} :
    ofText? text = some s ↔ text = s.toText := by
  unfold ofText?
  cases s <;> (repeat' split) <;> simp_all [toText]

end Subscription

structure Profile where
  id : Int64
  name : String
  email : String
  role : Role
  subscription : Subscription
deriving DecidableEq, Repr

namespace Profile

def fieldNames : List (List String) :=
  [["id"], ["name"], ["email"], ["role"], ["subscriptionStatus"]]

def toJson (p : Profile) : Json :=
  .object [Json.member "id" (.integer p.id.toInt), Json.member "name" (.text p.name),
    Json.member "email" (.text p.email), Json.member "role" p.role.toJson,
    Json.member "subscriptionStatus" p.subscription.toJson]

def ofJson? (v : Json) : Option Profile :=
  match v.fields? fieldNames with
  | some [some id, some name, some email, some role, some subscription] => do
    some { id := ← id.int64?, name := ← name.text?, email := ← email.text?
           role := ← Role.ofJson? role, subscription := ← Subscription.ofJson? subscription }
  | _ => none

end Profile

/-- An account as a directory knows it, with the hash of its password. -/
structure Account where
  id : Int64
  name : String
  email : String
  passwordHash : String
  role : Role
  subscription : Subscription
deriving DecidableEq

namespace Account

def profile (a : Account) : Profile where
  id := a.id
  name := a.name
  email := a.email
  role := a.role
  subscription := a.subscription

/-- What diagnostics show of an account: neither name nor hash. -/
def describe (a : Account) : String :=
  "UserRecord \x7b id: " ++ Text.writeInt64 a.id ++ ", email: " ++ Text.quoted a.email
    ++ ", role: " ++ a.role.name ++ ", subscription_status: " ++ a.subscription.name ++ ", .. \x7d"

end Account

end SessionGate
