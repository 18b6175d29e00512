import SessionGate.Program
import SessionGate.Service.Event
import SessionGate.Service.Note
import SessionGate.Session.Store

/-!
The operations that serving a request is made of. Each is performed as a whole; between two of them
other requests may have theirs.
-/

namespace SessionGate

inductive Effect : Type → Type
  | now : Effect Instant
  | draw : Effect (BitVec 128)
  | find (username : String) : Effect (Except DirectoryFault (Option Account))
  | create (id : String) (record : Session.Record) (lifetime : Nat) :
      Effect (Except Session.StoreFault Unit)
  | read (id : String) : Effect (Except Session.StoreFault Session.Stored)
  | delete (id : String) : Effect (Except Session.StoreFault Unit)
  | publish (event : Event) : Effect Unit
  | note (note : Note) : Effect Unit
  | pastCalendar : Effect Empty

abbrev Serve := ExceptT Refusal (Program Effect)

namespace Serve

def perform (e : Effect α) : Serve α := ExceptT.lift (Program.perform e)

def note (n : Note) : Serve Unit := perform (.note n)

def pastCalendar : Serve α := do
  let impossible ← perform .pastCalendar
  nomatch impossible

end Serve

end SessionGate
