/-!
Instants, counted in nanoseconds from the epoch, and the calendar's range. Spans of time are integer
counts of nanoseconds; adding one may leave the calendar, and then there is no instant.
-/

namespace SessionGate

structure Instant where
  nanos : Int
deriving DecidableEq, Repr

def second : Int := 1000000000

namespace Instant

instance : LE Instant := ⟨fun t u => t.nanos ≤ u.nanos⟩
instance : LT Instant := ⟨fun t u => t.nanos < u.nanos⟩
instance (t u : Instant) : Decidable (t ≤ u) := inferInstanceAs (Decidable (t.nanos ≤ u.nanos))
instance (t u : Instant) : Decidable (t < u) := inferInstanceAs (Decidable (t.nanos < u.nanos))

/-- The first instant of the calendar, at the start of the year -262143. -/
def first : Instant := ⟨-8334601228800 * second⟩

/-- The last instant of the calendar, at the end of the year 262142. -/
def last : Instant := ⟨8210266876799 * second + 999999999⟩

def InCalendar (t : Instant) : Prop := first ≤ t ∧ t ≤ last

instance (t : Instant) : Decidable t.InCalendar := inferInstanceAs (Decidable (_ ∧ _))

def ofSeconds (n : Int) : Instant := ⟨n * second⟩

def seconds (t : Instant) : Int := t.nanos / second

def fraction (t : Instant) : Nat := (t.nanos % second).toNat

def add? (t : Instant) (span : Int) : Option Instant :=
  let u : Instant := ⟨t.nanos + span⟩
  if u.InCalendar then some u else none

def since (t u : Instant) : Int := t.nanos - u.nanos

def floor (t : Instant) : Instant := ofSeconds t.seconds

theorem add?_eq_some_iff {t u : Instant} {span : Int} :
    t.add? span = some u ↔ u.nanos = t.nanos + span ∧ u.InCalendar := by
  simp only [add?, Option.ite_none_right_eq_some, Option.some.injEq]
  constructor
  · rintro ⟨h, rfl⟩
    exact ⟨rfl, h⟩
  · rintro ⟨h, hu⟩
    obtain ⟨n⟩ := u
    subst h
    exact ⟨hu, rfl⟩

end Instant

end SessionGate
