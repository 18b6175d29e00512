import SessionGate.Clock.Instant
import SessionGate.Lookup
import SessionGate.Redis.Command

/-!
A Redis server that is all data. Every key holds a hash of fields, a text, or a value of another
kind, and may carry the instant from which it is gone. `Server.value?` is the view that all answers
come from.
-/

namespace SessionGate.Redis

inductive Value
  | hash (fields : Session.Fields)
  | text (text : String)
  | other (kind : String)
deriving DecidableEq, Repr

def Value.kind : Value → String
  | hash _ => "hash"
  | text _ => "string"
  | other kind => kind

structure Entry where
  value : Value
  expiry : Option Instant
deriving DecidableEq, Repr

def Entry.isLive (e : Entry) (now : Instant) : Bool :=
  e.expiry.all fun t => decide (now < t)

/-- Entries by key, at most one for each. -/
structure Server where
  entries : List (String × Entry)

namespace Server

def empty : Server := ⟨[]⟩

def held? (s : Server) (now : Instant) (key : String) : Option Entry :=
  (s.entries.lookup key).filter (·.isLive now)

def value? (s : Server) (now : Instant) (key : String) : Option Value :=
  (s.held? now key).map Entry.value

def erase (s : Server) (key : String) : Server := ⟨s.entries.filter (·.1 ≠ key)⟩

def put (s : Server) (key : String) (e : Entry) : Server := ⟨(key, e) :: (s.erase key).entries⟩

/-- Fields with some of them set: those already there keep their places. -/
def setFields (old new : Session.Fields) : Session.Fields :=
  new.foldl (fun fields (name, text) =>
    if fields.any (·.1 == name) then
      fields.map fun (n, t) => if n = name then (n, text) else (n, t)
    else fields ++ [(name, text)]) old

/-- Performs a write. A key keeps its expiry when fields of it are set; a span that is over deletes
it. -/
def write (s : Server) (now : Instant) : Write → Reply Unit × Server
  | .delete key => (.ok (), s.erase key)
  | .setText key text => (.ok (), s.put key { value := .text text, expiry := none })
  | .setFields key fields => match s.held? now key with
    | none => (.ok (), s.put key { value := .hash (setFields [] fields), expiry := none })
    | some { value := .hash old, expiry } =>
      (.ok (), s.put key { value := .hash (setFields old fields), expiry })
    | some _ => (.error .wrongType, s)
  | .expire key seconds => match s.held? now key with
    | none => (.ok (), s)
    | some e =>
      if seconds ≤ 0 then (.ok (), s.erase key)
      else
        (.ok (), s.put key { e with expiry := some ⟨now.nanos + seconds.toInt * second⟩ })

def writeAll (s : Server) (now : Instant) : List Write → Reply Unit × Server
  | [] => (.ok (), s)
  | w :: rest =>
    let (reply, s) := s.write now w
    let (replies, s) := s.writeAll now rest
    (reply.bind fun _ => replies, s)

def perform (s : Server) (now : Instant) : {β : Type} → Command β → β × Server
  | _, .kind key => (.ok ((s.value? now key).elim "none" Value.kind), s)
  | _, .fields key => match s.value? now key with
    | none => (.ok [], s)
    | some (.hash fields) => (.ok fields, s)
    | some _ => (.error .wrongType, s)
  | _, .text key => match s.value? now key with
    | none => (.ok none, s)
    | some (.text text) => (.ok (some text), s)
    | some _ => (.error .wrongType, s)
  | _, .write w => s.write now w
  | _, .transaction writes => s.writeAll now writes

theorem held?_erase (s : Server) (now : Instant) (key k : String) :
    (s.erase key).held? now k = if k = key then none else s.held? now k := by
  rw [held?, erase, lookup_filter_ne]
  split <;> rfl

theorem held?_put (s : Server) (now : Instant) (key k : String) (e : Entry) :
    (s.put key e).held? now k =
      if k = key then (if e.isLive now then some e else none) else s.held? now k := by
  rw [held?, put, List.lookup_cons]
  by_cases h : k = key
  · simp [h, Option.filter]
  · rw [beq_eq_false_iff_ne.mpr h]
    simpa [h, held?] using held?_erase s now key k

end Server

end SessionGate.Redis
