import SessionGate.Session.Record
import SessionGate.Text.Decimal

/-!
The commands of a Redis server that sessions are kept with, and the words each is sent as. Writes may
be put together into a transaction, which the server performs as a whole.
-/

namespace SessionGate.Redis

/-- Why the server, or the way to it, gave no answer of the expected form. -/
inductive Fault
  | wrongType
  | unavailable
deriving DecidableEq, Repr

abbrev Reply (α : Type) := Except Fault α

inductive Write
  | delete (key : String)
  | setFields (key : String) (fields : Session.Fields)
  | setText (key text : String)
  | expire (key : String) (seconds : Int64)
deriving DecidableEq, Repr

inductive Command : Type → Type
  | kind (key : String) : Command (Reply String)
  | fields (key : String) : Command (Reply Session.Fields)
  | text (key : String) : Command (Reply (Option String))
  | write (w : Write) : Command (Reply Unit)
  | transaction (writes : List Write) : Command (Reply Unit)

def Write.words : Write → List String
  | delete key => ["DEL", key]
  | setFields key fields => "HSET" :: key :: fields.flatMap fun (name, text) => [name, text]
  | setText key text => ["SET", key, text]
  | expire key seconds => ["EXPIRE", key, Text.writeInt64 seconds]

def Command.words : Command β → List (List String)
  | kind key => [["TYPE", key]]
  | fields key => [["HGETALL", key]]
  | text key => [["GET", key]]
  | write w => [w.words]
  | transaction writes => ["MULTI"] :: writes.map Write.words ++ [["EXEC"]]

end SessionGate.Redis
