import SessionGate.Clock.Instant
import SessionGate.Lookup
import SessionGate.Session.Record

/-!
A store of sessions in memory. Every entry carries the instant from which it no longer counts; a read
that meets a spent entry drops it. `Store.live?` is the view that all answers come from. Main
statements: what inserting and erasing do to the view, and that reading changes nothing in it from
then on.
-/

namespace SessionGate.Session

inductive Value
  | fields (fields : Fields)
  | scalar (text : String)
deriving DecidableEq, Repr

structure Entry where
  value : Value
  expiry : Instant
deriving DecidableEq, Repr

def Value.read : Value → Except StoreFault Stored
  | .fields [] => .error .notFound
  | .fields fs => ((Record.ofFields fs).map .record).mapError .corrupt
  | .scalar text => .ok (.scalar text)

inductive WriteFault
  | badLifetime
  | pastCalendar
deriving DecidableEq, Repr

/-- Entries by session id, at most one for each. -/
structure Store where
  entries : List (String × Entry)

namespace Store

def empty : Store := ⟨[]⟩

def held? (s : Store) (id : String) : Option Entry := s.entries.lookup id

def erase (s : Store) (id : String) : Store := ⟨s.entries.filter (·.1 ≠ id)⟩

def insert (s : Store) (id : String) (e : Entry) : Store := ⟨(id, e) :: (s.erase id).entries⟩

/-- The longest lifetime that can be asked for, in nanoseconds. -/
def longestLifetime : Nat := 9223372036854775807000000

/-- When something written now for a lifetime in nanoseconds is spent. -/
def expiry (now : Instant) (lifetime : Nat) : Except WriteFault Instant :=
  if lifetime = 0 ∨ longestLifetime < lifetime then .error .badLifetime
  else match now.add? lifetime with
    | some t => .ok t
    | none => .error .pastCalendar

def write (s : Store) (now : Instant) (id : String) (value : Value) (lifetime : Nat) :
    Except WriteFault Store := do
  let expiry ← expiry now lifetime
  return s.insert id { value, expiry }

def create (s : Store) (now : Instant) (id : String) (r : Record) (lifetime : Nat) :
    Except WriteFault Store :=
  s.write now id (.fields r.toFields) lifetime

/-- A bare subject, as older deployments wrote it. -/
def insertLegacy (s : Store) (now : Instant) (id text : String) (lifetime : Nat) :
    Except WriteFault Store :=
  s.write now id (.scalar text) lifetime

def delete (s : Store) (id : String) : Store := s.erase id

/-- The entry of an id that is not spent. -/
def live? (s : Store) (now : Instant) (id : String) : Option Entry :=
  (s.held? id).filter (now < ·.expiry)

/-- What is stored under an id, and the store without a spent entry met on the way. -/
def read (s : Store) (now : Instant) (id : String) : Except StoreFault Stored × Store :=
  match s.live? now id with
  | some e => (e.value.read, s)
  | none => (.error .notFound, s.erase id)

def count (s : Store) (now : Instant) : Nat :=
  s.entries.countP fun (_, e) => now < e.expiry

theorem held?_erase (s : Store) (id k : String) :
    (s.erase id).held? k = if k = id then none else s.held? k :=
  lookup_filter_ne s.entries id k

theorem held?_insert (s : Store) (id k : String) (e : Entry) :
    (s.insert id e).held? k = if k = id then some e else s.held? k := by
  rw [held?, insert, List.lookup_cons]
  by_cases h : k = id
  · simp [h]
  · rw [beq_eq_false_iff_ne.mpr h]
    simpa [h, held?] using held?_erase s id k

theorem live?_erase (s : Store) (now : Instant) (id k : String) :
    (s.erase id).live? now k = if k = id then none else s.live? now k := by
  rw [live?, held?_erase]
  split <;> rfl

theorem live?_insert (s : Store) (now : Instant) (id k : String) (e : Entry) :
    (s.insert id e).live? now k =
      if k = id then (if now < e.expiry then some e else none) else s.live? now k := by
  rw [live?, held?_insert]
  by_cases h : k = id
  · simp [h, Option.filter]
  · simp [h, live?]

theorem live?_eq_none_of_le {s : Store} {now later : Instant} {k : String} (hle : now ≤ later)
    (h : s.live? now k = none) : s.live? later k = none := by
  rw [live?, Option.filter_eq_none_iff] at h ⊢
  intro e he hlt
  have hlt : later.nanos < e.expiry.nanos := of_decide_eq_true hlt
  have hle : now.nanos ≤ later.nanos := hle
  exact h e he (decide_eq_true (show now.nanos < e.expiry.nanos by omega))

theorem live?_read {now later : Instant} (hle : now ≤ later) (s : Store) (id k : String) :
    (s.read now id).2.live? later k = s.live? later k := by
  unfold read
  split
  · rfl
  · next h =>
    rw [live?_erase]
    split
    · next hk =>
      subst hk
      exact (live?_eq_none_of_le hle h).symm
    · rfl

end Store

end SessionGate.Session
