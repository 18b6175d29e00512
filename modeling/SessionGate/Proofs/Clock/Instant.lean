import SessionGate.Clock.Instant

/-!
Orders of instants in nanoseconds, and the start of a second, which is in the calendar with every
instant of the second.
-/

namespace SessionGate.Instant

theorem le_iff {t u : Instant} : t ≤ u ↔ t.nanos ≤ u.nanos := Iff.rfl

theorem lt_iff {t u : Instant} : t < u ↔ t.nanos < u.nanos := Iff.rfl

theorem not_lt {t u : Instant} : ¬ t < u ↔ u ≤ t := Int.not_lt

theorem floor_nanos (t : Instant) : t.floor.nanos = t.nanos / 1000000000 * 1000000000 := rfl

theorem seconds_eq (t : Instant) : t.seconds = t.nanos / 1000000000 := rfl

theorem inCalendar_iff {t : Instant} : t.InCalendar ↔
    -8334601228800 * 1000000000 ≤ t.nanos ∧ t.nanos ≤ 8210266876799 * 1000000000 + 999999999 :=
  Iff.rfl

theorem inCalendar_floor {t : Instant} (h : t.InCalendar) : t.floor.InCalendar := by
  rw [inCalendar_iff] at h ⊢
  rw [floor_nanos]
  omega

end SessionGate.Instant
