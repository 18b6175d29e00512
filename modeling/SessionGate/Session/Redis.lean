import SessionGate.Program
import SessionGate.Redis.Command

/-!
Sessions on a Redis server. A record is a hash under its session id, whose own expiry ends it; a
legacy session is a text. A record is written by one transaction, but read by two commands, between
which other clients may have theirs.
-/

namespace SessionGate.Session.Redis

open SessionGate.Redis

abbrev Access (α : Type) := ExceptT StoreFault (Program Command) α

/-- Sends a command. A reply that is a fault ends the access. -/
def send (c : Command (Reply α)) : Access α := ExceptT.mk do
  return (← Program.perform c).mapError fun _ => .unavailable

def wholeSeconds (lifetime : Nat) : Nat := lifetime / 1000000000

def createWrites (id : String) (r : Record) (seconds : Nat) : List Write :=
  [.delete id, .setFields id r.toFields, .expire id (Int64.ofNat seconds)]

/-- Stores a record for the whole seconds of a lifetime. -/
def create (id : String) (r : Record) (lifetime : Nat) : Access Unit :=
  if wholeSeconds lifetime = 0 then throw .badLifetime
  else send (.transaction (createWrites id r (wholeSeconds lifetime)))

def readFields (id : String) : Access Stored := do
  match ← send (.fields id) with
  | [] => throw .notFound
  | fields => ExceptT.mk (pure (((Record.ofFields fields).map .record).mapError .corrupt))

/-- A text may be gone since its kind was told. -/
def readText (id : String) : Access Stored := do
  match ← send (.text id) with
  | some text => return .scalar text
  | none => throw .notFound

def read (id : String) : Access Stored := do
  let kind ← send (.kind id)
  if kind = "none" then throw .notFound
  else if kind = "hash" then readFields id
  else if kind = "string" then readText id
  else throw (.corrupt (.unexpectedKind kind))

def delete (id : String) : Access Unit := send (.write (.delete id))

end SessionGate.Session.Redis
