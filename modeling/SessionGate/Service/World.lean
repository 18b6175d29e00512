import SessionGate.Api.Route
import SessionGate.Directory.Static

/-!
The surroundings of a service that are all data: its clocks, its source of numbers, its store and its
directory, operations chosen to fail, and the events and notes so far.
-/

namespace SessionGate

structure Faults where
  create : Option Session.StoreFault := none
  read : Option Session.StoreFault := none
  delete : Option Session.StoreFault := none
  find : Option DirectoryFault := none

structure World where
  clock : Instant
  wall : Instant
  /-- The numbers that are drawn, by their place. -/
  entropy : Nat → BitVec 128
  drawn : Nat
  store : Session.Store
  directory : Directory
  faults : Faults
  events : List (Instant × Event)
  notes : List Note

/-- Time has run past the calendar. -/
structure PastCalendar where

namespace World

/-- The answer of the store to a write, and the store after it. -/
def create (w : World) (id : String) (r : Session.Record) (lifetime : Nat) :
    Except PastCalendar (Except Session.StoreFault Unit × World) :=
  match w.faults.create with
  | some fault => .ok (.error fault, w)
  | none => match w.store.create w.clock id r lifetime with
    | .ok store => .ok (.ok (), { w with store })
    | .error .badLifetime => .ok (.error .badLifetime, w)
    | .error .pastCalendar => .error {}

def read (w : World) (id : String) : Except Session.StoreFault Session.Stored × World :=
  match w.faults.read with
  | some fault => (.error fault, w)
  | none =>
    let (found, store) := w.store.read w.clock id
    (found, { w with store })

def delete (w : World) (id : String) : Except Session.StoreFault Unit × World :=
  match w.faults.delete with
  | some fault => (.error fault, w)
  | none => (.ok (), { w with store := w.store.delete id })

def find (w : World) (username : String) : Except DirectoryFault (Option Account) :=
  match w.faults.find with
  | some fault => .error fault
  | none => .ok (w.directory.find? username)

def perform (w : World) : {β : Type} → Effect β → Except PastCalendar β × World
  | _, .now => (.ok w.clock, w)
  | _, .draw => (.ok (w.entropy w.drawn), { w with drawn := w.drawn + 1 })
  | _, .find username => (.ok (w.find username), w)
  | _, .create id r lifetime => match w.create id r lifetime with
    | .ok (answer, w) => (.ok answer, w)
    | .error past => (.error past, w)
  | _, .read id =>
    let (answer, w) := w.read id
    (.ok answer, w)
  | _, .delete id =>
    let (answer, w) := w.delete id
    (.ok answer, w)
  | _, .publish event => (.ok (), { w with events := w.events ++ [(w.wall, event)] })
  | _, .note n => (.ok (), { w with notes := w.notes ++ [n] })
  | _, .pastCalendar => (.error {}, w)

def handle {β : Type} (e : Effect β) : ExceptT PastCalendar (StateM World) β :=
  fun w => w.perform e

/-- Runs a program to its end, one operation right after another. -/
def run (w : World) (p : Program Effect α) : Except PastCalendar α × World := p.run handle w

def runServe (w : World) (s : Serve α) : Except PastCalendar (Except Refusal α) × World :=
  w.run s.run

def serve (w : World) (d : Deployment) (req : Http.Request) :
    Except PastCalendar Http.Response × World :=
  w.run (d.serve req)

end World

end SessionGate
