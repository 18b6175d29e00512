import SessionGate.Proofs.Clock.Instant
import SessionGate.Proofs.Session.TimedMap

/-!
What the store in memory makes of a lifetime. One that is zero or too long to be told is refused, and one
that ends within the calendar is taken; between them there are lifetimes that end past the calendar, and with
these the store panics. Main statements: `Store.lifetimes` for one call and `Store.past_mem_answers_iff` for
calls that are made one after another.
-/

namespace SessionGate.Session

/-- A call that writes a value under an id, to be held for a lifetime. -/
inductive Call.Writes : Call → String → Value → Nat → Prop
  | create (id : String) (r : Record) (lifetime : Nat) :
    Writes (.create id r lifetime) id (.fields r.toFields) lifetime
  | insertLegacy (id text : String) (lifetime : Nat) :
    Writes (.insertLegacy id text lifetime) id (.scalar text) lifetime

namespace Store

variable {s : Store} {now : Instant} {c : Call} {id : String} {value : Value} {lifetime : Nat}

theorem call_of_writes (h : c.Writes id value lifetime) :
    s.call now c = s.written (s.write now id value lifetime) := by
  cases h <;> rfl

theorem lifetime?_of_writes (h : c.Writes id value lifetime) : c.lifetime? = some lifetime := by
  cases h <;> rfl

theorem call_refused (h : c.Writes id value lifetime)
    (hlifetime : lifetime = 0 ∨ longestLifetime < lifetime) :
    s.call now c = (.done (.error .badLifetime), s) := by
  rw [call_of_writes h, write, expiry, if_pos hlifetime]
  rfl

theorem call_past (h : c.Writes id value lifetime) (hpos : 0 < lifetime)
    (hlong : lifetime ≤ longestLifetime) (hpast : ¬ Instant.InCalendar ⟨now.nanos + lifetime⟩) :
    s.call now c = (.pastCalendar, s) := by
  have hadd : now.add? lifetime = none := if_neg hpast
  rw [call_of_writes h, write, expiry, if_neg (by omega), hadd]
  rfl

theorem call_done (h : c.Writes id value lifetime) (hpos : 0 < lifetime)
    (hlong : lifetime ≤ longestLifetime) (hcalendar : Instant.InCalendar ⟨now.nanos + lifetime⟩) :
    s.call now c = (.done (.ok ()), s.insert id ⟨value, ⟨now.nanos + lifetime⟩⟩) := by
  have hadd : now.add? lifetime = some ⟨now.nanos + lifetime⟩ := if_pos hcalendar
  rw [call_of_writes h, write, expiry, if_neg (by omega), hadd]
  rfl

theorem onCalendar_iff_of_writes (h : c.Writes id value lifetime) : c.OnCalendar now ↔
    (0 < lifetime → lifetime ≤ longestLifetime → Instant.InCalendar ⟨now.nanos + lifetime⟩) := by
  have hlifetime := lifetime?_of_writes h
  constructor
  · intro hcalendar
    exact hcalendar lifetime hlifetime
  · intro hcalendar l hl
    obtain rfl := Option.some.inj (hlifetime.symm.trans hl)
    exact hcalendar

theorem call_eq_past_of_writes (h : c.Writes id value lifetime) :
    (s.call now c).1 = .pastCalendar ↔ ¬ c.OnCalendar now := by
  rw [onCalendar_iff_of_writes h]
  by_cases hlifetime : lifetime = 0 ∨ longestLifetime < lifetime
  · rw [call_refused h hlifetime]
    refine iff_of_false nofun (not_not.mpr fun hpos hlong => ?_)
    omega
  · obtain ⟨hpos, hlong⟩ : 0 < lifetime ∧ lifetime ≤ longestLifetime := by omega
    by_cases hcalendar : Instant.InCalendar ⟨now.nanos + lifetime⟩
    · rw [call_done h hpos hlong hcalendar]
      exact iff_of_false nofun (not_not.mpr fun _ _ => hcalendar)
    · rw [call_past h hpos hlong hcalendar]
      exact iff_of_true rfl fun hends => hcalendar (hends hpos hlong)

/-- Whatever a store holds, it panics exactly at what is to be held until after the calendar. -/
theorem call_eq_past_iff (s : Store) (now : Instant) (c : Call) :
    (s.call now c).1 = .pastCalendar ↔ ¬ c.OnCalendar now := by
  cases c with
  | create id r lifetime => exact call_eq_past_of_writes (.create ..)
  | insertLegacy id text lifetime => exact call_eq_past_of_writes (.insertLegacy ..)
  | read id | delete id | count => exact iff_of_false nofun (not_not.mpr nofun)

/-- Of calls that are made one after another, those panic whose lifetime ends past the calendar, whatever
came before them. -/
theorem past_mem_answers_iff (s : Store) (calls : List (Instant × Call)) :
    .pastCalendar ∈ s.answers calls ↔ ∃ c ∈ calls, ¬ c.2.OnCalendar c.1 := by
  induction calls generalizing s with
  | nil => exact iff_of_false List.not_mem_nil nofun
  | cons first calls ih =>
    obtain ⟨time, c⟩ := first
    rw [answers, answersFrom, List.mem_cons, List.exists_mem_cons_iff, ← s.call_eq_past_iff, eq_comm]
    exact or_congr Iff.rfl (ih _)

end Store

/-- What becomes of a call that writes. -/
structure WriteOutcome (s : Store) (now : Instant) (c : Call) (id : String) (value : Value)
    (lifetime : Nat) : Prop where
  refused_iff : (s.call now c).1 = .done (.error .badLifetime) ↔
    lifetime = 0 ∨ Store.longestLifetime < lifetime
  past_iff : (s.call now c).1 = .pastCalendar ↔
    0 < lifetime ∧ lifetime ≤ Store.longestLifetime ∧ Instant.last.nanos < now.nanos + lifetime
  taken_iff : (s.call now c).1 = .done (.ok ()) ↔
    0 < lifetime ∧ lifetime ≤ Store.longestLifetime ∧ now.nanos + lifetime ≤ Instant.last.nanos
  unchanged : (s.call now c).1 ≠ .done (.ok ()) → (s.call now c).2 = s
  written : (s.call now c).1 = .done (.ok ()) →
    (s.call now c).2 = s.insert id { value, expiry := ⟨now.nanos + lifetime⟩ }
  /-- The longest lifetime that is not refused ends past the calendar at every instant. -/
  longest_past : lifetime = Store.longestLifetime → (s.call now c).1 = .pastCalendar

/-- From an instant of the calendar on, a lifetime ends within it unless it ends after the last one. -/
theorem Store.inCalendar_iff_of_from {now : Instant} (hnow : now.InCalendar) (lifetime : Nat) :
    Instant.InCalendar ⟨now.nanos + lifetime⟩ ↔ now.nanos + lifetime ≤ Instant.last.nanos := by
  refine and_iff_right_of_imp fun _ => ?_
  have hfirst : Instant.first.nanos ≤ now.nanos := hnow.1
  change Instant.first.nanos ≤ now.nanos + lifetime
  omega

/-- A lifetime is refused, taken, or too long for the calendar from now on, and then there is a panic. -/
theorem Store.lifetimes (s : Store) {now : Instant} (hnow : now.InCalendar) {c : Call} {id : String}
    {value : Value} {lifetime : Nat} (h : c.Writes id value lifetime) :
    WriteOutcome s now c id value lifetime := by
  have hends := inCalendar_iff_of_from hnow lifetime
  have hwidth : Instant.last.nanos - Instant.first.nanos < longestLifetime := by decide
  have hfirst : Instant.first.nanos ≤ now.nanos := hnow.1
  by_cases hrefused : lifetime = 0 ∨ longestLifetime < lifetime
  · have hcall : s.call now c = (.done (.error .badLifetime), s) := call_refused h hrefused
    exact {
      refused_iff := by rw [hcall]; exact iff_of_true rfl hrefused
      past_iff := by rw [hcall]; exact iff_of_false nofun (by omega)
      taken_iff := by rw [hcall]; exact iff_of_false nofun (by omega)
      unchanged := by rw [hcall]; exact fun _ => rfl
      written := by rw [hcall]; exact nofun
      longest_past := by
        have hpos : 0 < longestLifetime := by decide
        omega }
  obtain ⟨hpos, hlong⟩ : 0 < lifetime ∧ lifetime ≤ longestLifetime := by omega
  by_cases hpast : Instant.last.nanos < now.nanos + lifetime
  · have hcall := call_past (s := s) h hpos hlong (mt hends.mp (by omega))
    exact {
      refused_iff := by rw [hcall]; exact iff_of_false nofun hrefused
      past_iff := by rw [hcall]; exact iff_of_true rfl ⟨hpos, hlong, hpast⟩
      taken_iff := by rw [hcall]; exact iff_of_false nofun (by omega)
      unchanged := by rw [hcall]; exact fun _ => rfl
      written := by rw [hcall]; exact nofun
      longest_past := by rw [hcall]; exact fun _ => rfl }
  · have hcall := call_done (s := s) h hpos hlong (hends.mpr (by omega))
    exact {
      refused_iff := by rw [hcall]; exact iff_of_false nofun hrefused
      past_iff := by rw [hcall]; exact iff_of_false nofun (by omega)
      taken_iff := by rw [hcall]; exact iff_of_true rfl ⟨hpos, hlong, by omega⟩
      unchanged := by rw [hcall]; exact fun hne => absurd rfl hne
      written := by rw [hcall]; exact fun _ => rfl
      -- The longest lifetime is longer than the whole calendar.
      longest_past := by omega }

/-- One nanosecond decides whether a lifetime is taken or ends past the calendar. -/
theorem Store.lifetimes_sample :
    ((empty.call ⟨1700000000000000000⟩ (.insertLegacy "first" "7" 8208566876799999999999)).1 =
        .done (.ok ()) ∧
      (empty.call ⟨1700000000000000000⟩ (.insertLegacy "first" "7" 8208566876799999999999)).2.held? "first" =
        some ⟨.scalar "7", Instant.last⟩) ∧
    (empty.call ⟨1700000000000000000⟩ (.create "first" Sample.record 8208566876800000000000)).1 =
      .pastCalendar ∧
    (empty.call ⟨1700000000000000000⟩ (.create "first" Sample.record 0)).1 =
      .done (.error .badLifetime) := by
  have hnow : Instant.InCalendar ⟨1700000000000000000⟩ := by decide
  have hlegacy := empty.lifetimes hnow (.insertLegacy "first" "7" 8208566876799999999999)
  have htaken := hlegacy.taken_iff.mpr (by decide)
  refine ⟨⟨htaken, ?_⟩, ?_, ?_⟩
  · rw [hlegacy.written htaken, held?_insert]
    rfl
  · exact (empty.lifetimes hnow (.create "first" Sample.record 8208566876800000000000)).past_iff.mpr (by decide)
  · exact (empty.lifetimes hnow (.create "first" Sample.record 0)).refused_iff.mpr (.inl rfl)

end SessionGate.Session
