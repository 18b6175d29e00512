import Mathlib.Data.Set.Card
import SessionGate.Proofs.Session.Record

/-!
The store in memory, seen from outside, is a map whose entries count until an instant. Spent entries
that linger until a read drops them, and the texts that a record is kept as, show in no answer. Main
statement: `Store.refines_timedMap`, for every sequence of calls at times that never go back.
-/

namespace SessionGate.Session

inductive Call
  | create (id : String) (r : Record) (lifetime : Nat)
  | insertLegacy (id text : String) (lifetime : Nat)
  | read (id : String)
  | delete (id : String)
  | count
deriving DecidableEq, Repr

inductive Answer
  | done (result : Except StoreFault Unit)
  | found (result : Except StoreFault Stored)
  | counted (n : Nat)
  /-- There is no instant at which what was written would end. -/
  | pastCalendar

namespace Call

def Looks : Call → Prop
  | read _ | count => True
  | _ => False

def written? : Call → Option String
  | create id _ _ | insertLegacy id _ _ | delete id => some id
  | read _ | count => none

def lifetime? : Call → Option Nat
  | create _ _ lifetime | insertLegacy _ _ lifetime => some lifetime
  | _ => none

/-- What is written now, if its lifetime is taken, ends within the calendar. -/
def OnCalendar (now : Instant) (c : Call) : Prop :=
  ∀ lifetime : Nat, c.lifetime? = some lifetime → 0 < lifetime →
    lifetime ≤ Store.longestLifetime → Instant.InCalendar ⟨now.nanos + lifetime⟩

/-- The same call with empty names and emails left out of the record. -/
def asRead : Call → Call
  | create id r lifetime => create id r.asRead lifetime
  | c => c

theorem looks_asRead {c : Call} (h : c.Looks) : c.asRead.Looks := by
  cases c <;> exact h

end Call

section

variable {σ : Type} (step : σ → Instant → Call → Answer × σ)

/-- The answers to calls that are made one after another, each at its instant. -/
def answersFrom (s : σ) : List (Instant × Call) → List Answer
  | [] => []
  | (now, c) :: calls => (step s now c).1 :: answersFrom (step s now c).2 calls

def stateAfter (s : σ) : List (Instant × Call) → σ
  | [] => s
  | (now, c) :: calls => stateAfter (step s now c).2 calls

end

namespace Store

def written (s : Store) : Except WriteFault Store → Answer × Store
  | .ok s' => (.done (.ok ()), s')
  | .error .badLifetime => (.done (.error .badLifetime), s)
  | .error .pastCalendar => (.pastCalendar, s)

def call (s : Store) (now : Instant) : Call → Answer × Store
  | .create id r lifetime => s.written (s.create now id r lifetime)
  | .insertLegacy id text lifetime => s.written (s.insertLegacy now id text lifetime)
  | .read id => (.found (s.read now id).1, (s.read now id).2)
  | .delete id => (.done (.ok ()), s.delete id)
  | .count => (.counted (s.count now), s)

def answers : Store → List (Instant × Call) → List Answer := answersFrom call

def after : Store → List (Instant × Call) → Store := stateAfter call

end Store

/-- A map with times: under each id what was written there last, and the nanosecond from which it
counts no more. -/
structure TimedMap where
  written : String → Option (Stored × Int)

namespace TimedMap

def empty : TimedMap := ⟨fun _ => none⟩

def set (m : TimedMap) (id : String) (held : Option (Stored × Int)) : TimedMap :=
  ⟨fun k => if k = id then held else m.written k⟩

def put (m : TimedMap) (now : Instant) (id : String) (value : Stored) (lifetime : Nat) :
    Answer × TimedMap :=
  if 0 < lifetime ∧ lifetime ≤ Store.longestLifetime then
    (.done (.ok ()), m.set id (some (value, now.nanos + lifetime)))
  else (.done (.error .badLifetime), m)

def readable (now : Instant) : Option (Stored × Int) → Except StoreFault Stored
  | some (value, till) => if now.nanos < till then .ok value else .error .notFound
  | none => .error .notFound

def read (m : TimedMap) (now : Instant) (id : String) : Except StoreFault Stored :=
  readable now (m.written id)

/-- The ids that a read would find. -/
def present (m : TimedMap) (now : Instant) : Set String :=
  {id | ∃ value, m.read now id = .ok value}

noncomputable def call (m : TimedMap) (now : Instant) : Call → Answer × TimedMap
  | .create id r lifetime => m.put now id (.record r) lifetime
  | .insertLegacy id text lifetime => m.put now id (.scalar text) lifetime
  | .read id => (.found (m.read now id), m)
  | .delete id => (.done (.ok ()), m.set id none)
  | .count => (.counted (m.present now).ncard, m)

noncomputable def answers : TimedMap → List (Instant × Call) → List Answer := answersFrom call

theorem read_set (m : TimedMap) (now : Instant) (id k : String) (held : Option (Stored × Int)) :
    (m.set id held).read now k = if k = id then readable now held else m.read now k := by
  rw [read, set]
  exact apply_ite (readable now) (k = id) held (m.written k)

theorem read_ne_corrupt (m : TimedMap) (now : Instant) (id : String) (fault : RecordFault) :
    m.read now id ≠ .error (.corrupt fault) := by
  rw [read]
  rcases m.written id with - | ⟨value, till⟩
  · exact nofun
  · rw [readable]
    split <;> exact nofun

theorem call_ne_corrupt (m : TimedMap) (now : Instant) (c : Call) (fault : RecordFault) :
    (m.call now c).1 ≠ .found (.error (.corrupt fault)) := by
  cases c with
  | read id => exact fun h => m.read_ne_corrupt now id fault (Answer.found.inj h)
  | create id r lifetime =>
    change (m.put now id (.record r) lifetime).1 ≠ _
    unfold put
    split <;> exact nofun
  | insertLegacy id text lifetime =>
    change (m.put now id (.scalar text) lifetime).1 ≠ _
    unfold put
    split <;> exact nofun
  | delete id | count => exact nofun

theorem corrupt_not_mem_answers (m : TimedMap) (calls : List (Instant × Call))
    (fault : RecordFault) : .found (.error (.corrupt fault)) ∉ m.answers calls := by
  induction calls generalizing m with
  | nil => exact List.not_mem_nil
  | cons c calls ih =>
    rw [answers, answersFrom, List.mem_cons, not_or]
    exact ⟨(m.call_ne_corrupt c.1 c.2 fault).symm, ih _⟩

theorem call_of_looks {c : Call} (h : c.Looks) (m : TimedMap) (now : Instant) :
    (m.call now c).2 = m := by
  cases c with
  | read id | count => rfl
  | _ => cases h

end TimedMap

def without : List Bool → List α → List α
  | [], xs => xs
  | _ :: _, [] => []
  | true :: marks, _ :: xs => without marks xs
  | false :: marks, x :: xs => x :: without marks xs

theorem without_sublist (marks : List Bool) (xs : List α) : (without marks xs).Sublist xs := by
  fun_induction without marks xs with
  | case1 xs => exact .refl xs
  | case2 => exact .refl []
  | case3 marks x xs ih => exact .cons x ih
  | case4 marks x xs ih => exact .cons_cons x ih

theorem without_map (marks : List Bool) (f : α → β) (xs : List α) :
    without marks (xs.map f) = (without marks xs).map f := by
  fun_induction without marks xs with
  | case1 xs => rfl
  | case2 => rfl
  | case3 marks x xs ih => exact ih
  | case4 marks x xs ih => exact congrArg (f x :: ·) ih

/-- Looking changes no other answer. -/
theorem TimedMap.without_answers (m : TimedMap) (marks : List Bool) (calls : List (Instant × Call))
    (hmarks : ∀ (i : Nat) (time : Instant) (c : Call), marks[i]? = some true →
      calls[i]? = some (time, c) → c.Looks) :
    without marks (m.answers calls) = m.answers (without marks calls) := by
  induction calls generalizing m marks with
  | nil => cases marks <;> rfl
  | cons c calls ih =>
    cases marks with
    | nil => rfl
    | cons mark marks =>
      have htail := fun i => hmarks (i + 1)
      cases mark with
      | true =>
        have hlooks : c.2.Looks := hmarks 0 c.1 c.2 rfl rfl
        have hrest := ih m marks htail
        rw [answers, answersFrom, m.call_of_looks hlooks]
        exact hrest
      | false => exact congrArg _ (ih _ marks htail)

/-- A store stands for a timed map from an instant on. -/
structure Represents (s : Store) (m : TimedMap) (now : Instant) : Prop where
  nodup : (s.entries.map Prod.fst).Nodup
  decodes : ∀ p ∈ s.entries, ∃ v, p.2.value.read = .ok v
  agree : ∀ later, now ≤ later → ∀ id, (s.read later id).1 = m.read later id

namespace Store

theorem read_fst (s : Store) (now : Instant) (id : String) :
    (s.read now id).1 = match s.live? now id with
      | some e => e.value.read
      | none => .error .notFound := by
  unfold read
  cases s.live? now id <;> rfl

theorem mem_entries_insert {s : Store} {id : String} {e : Entry} {p : String × Entry}
    (h : p ∈ (s.insert id e).entries) : p = (id, e) ∨ p ∈ s.entries := by
  rcases List.mem_cons.mp h with h | h
  · exact .inl h
  · exact .inr (List.mem_filter.mp h).1

theorem nodup_erase {s : Store} (h : (s.entries.map Prod.fst).Nodup) (id : String) :
    ((s.erase id).entries.map Prod.fst).Nodup :=
  h.sublist (List.filter_sublist.map Prod.fst)

theorem nodup_insert {s : Store} (h : (s.entries.map Prod.fst).Nodup) (id : String) (e : Entry) :
    ((s.insert id e).entries.map Prod.fst).Nodup := by
  refine List.nodup_cons.mpr ⟨?_, nodup_erase h id⟩
  intro hmem
  obtain ⟨p, hp, rfl⟩ := List.mem_map.mp hmem
  exact of_decide_eq_true (List.mem_filter.mp hp).2 rfl

theorem held?_eq_some_iff {s : Store} (h : (s.entries.map Prod.fst).Nodup) {id : String}
    {e : Entry} : s.held? id = some e ↔ (id, e) ∈ s.entries := by
  obtain ⟨entries⟩ := s
  change entries.lookup id = some e ↔ _
  induction entries with
  | nil => simp
  | cons p entries ih =>
    obtain ⟨k, e'⟩ := p
    obtain ⟨hk, htail⟩ := List.nodup_cons.mp h
    rw [List.lookup_cons, List.mem_cons]
    by_cases hid : id = k
    · subst hid
      have hrest : (id, e) ∉ entries := fun hmem => hk (List.mem_map.mpr ⟨_, hmem, rfl⟩)
      simp [hrest, eq_comm]
    · rw [beq_eq_false_iff_ne.mpr hid]
      have hne : (id, e) ≠ (k, e') := fun heq => hid (congrArg Prod.fst heq)
      simpa [hne] using ih htail

theorem live?_eq_some_iff {s : Store} (h : (s.entries.map Prod.fst).Nodup) {now : Instant}
    {id : String} {e : Entry} :
    s.live? now id = some e ↔ (id, e) ∈ s.entries ∧ now < e.expiry := by
  rw [live?, Option.filter_eq_some_iff, held?_eq_some_iff h, decide_eq_true_iff]

end Store

namespace Represents

variable {s : Store} {m : TimedMap} {now : Instant}

theorem empty (now : Instant) : Represents .empty .empty now :=
  ⟨List.nodup_nil, fun _ hp => absurd hp List.not_mem_nil, fun _ _ _ => rfl⟩

theorem later (h : Represents s m now) {time : Instant} (hle : now ≤ time) :
    Represents s m time :=
  ⟨h.nodup, h.decodes, fun later hlater => h.agree later (Int.le_trans hle hlater)⟩

theorem erase (h : Represents s m now) (id : String) :
    Represents (s.erase id) (m.set id none) now where
  nodup := Store.nodup_erase h.nodup id
  decodes p hp := h.decodes p (List.mem_filter.mp hp).1
  agree later hlater k := by
    rw [Store.read_fst, Store.live?_erase, TimedMap.read_set]
    by_cases hk : k = id
    · rw [if_pos hk, if_pos hk]
      rfl
    · rw [if_neg hk, if_neg hk, ← Store.read_fst, h.agree later hlater]

theorem insert (h : Represents s m now) (id : String) {value : Value} {v : Stored}
    (hv : value.read = .ok v) (till : Instant) :
    Represents (s.insert id ⟨value, till⟩) (m.set id (some (v, till.nanos))) now where
  nodup := Store.nodup_insert h.nodup id _
  decodes p hp := by
    rcases Store.mem_entries_insert hp with rfl | hp
    · exact ⟨v, hv⟩
    · exact h.decodes p hp
  agree later hlater k := by
    rw [Store.read_fst, Store.live?_insert, TimedMap.read_set]
    by_cases hk : k = id
    · rw [if_pos hk, if_pos hk]
      by_cases hlt : later < till
      · rw [if_pos hlt, TimedMap.readable, if_pos (show later.nanos < till.nanos from hlt)]
        exact hv
      · rw [if_neg hlt, TimedMap.readable, if_neg (show ¬ later.nanos < till.nanos from hlt)]
    · rw [if_neg hk, if_neg hk, ← Store.read_fst, h.agree later hlater]

theorem read (h : Represents s m now) (id : String) : Represents (s.read now id).2 m now where
  nodup := by
    unfold Store.read
    split
    · exact h.nodup
    · exact Store.nodup_erase h.nodup id
  decodes p hp := by
    unfold Store.read at hp
    split at hp
    · exact h.decodes p hp
    · exact h.decodes p (List.mem_filter.mp hp).1
  agree later hlater k := by
    rw [Store.read_fst, Store.live?_read hlater, ← Store.read_fst, h.agree later hlater]

theorem present_eq (h : Represents s m now) :
    m.present now = {id | ∃ e, (id, e) ∈ s.entries ∧ now < e.expiry} := by
  ext id
  change (∃ v, m.read now id = .ok v) ↔ ∃ e, _
  rw [← h.agree now (Int.le_refl _), Store.read_fst]
  constructor
  · rintro ⟨v, hv⟩
    cases hlive : s.live? now id with
    | some e => exact ⟨e, (Store.live?_eq_some_iff h.nodup).mp hlive⟩
    | none =>
      rw [hlive] at hv
      cases hv
  · rintro ⟨e, hmem, hlt⟩
    rw [(Store.live?_eq_some_iff h.nodup).mpr ⟨hmem, hlt⟩]
    exact h.decodes _ hmem

theorem count_eq (h : Represents s m now) : s.count now = (m.present now).ncard := by
  let live := s.entries.filter fun p => now < p.2.expiry
  have hnodup : (live.map Prod.fst).Nodup := h.nodup.sublist (List.filter_sublist.map Prod.fst)
  have hpresent : m.present now = ((live.map Prod.fst).toFinset : Set String) := by
    rw [h.present_eq]
    ext id
    simp [live]
  rw [hpresent, Set.ncard_coe_finset, List.toFinset_card_of_nodup hnodup, List.length_map,
    Store.count, List.countP_eq_length_filter]

theorem write (h : Represents s m now) (id : String) {value : Value} {v : Stored}
    (hv : value.read = .ok v) {lifetime : Nat}
    (hcalendar : 0 < lifetime → lifetime ≤ Store.longestLifetime →
      Instant.InCalendar ⟨now.nanos + lifetime⟩) :
    (s.written (s.write now id value lifetime)).1 = (m.put now id v lifetime).1 ∧
      Represents (s.written (s.write now id value lifetime)).2 (m.put now id v lifetime).2 now := by
  unfold TimedMap.put Store.write Store.expiry
  by_cases htaken : 0 < lifetime ∧ lifetime ≤ Store.longestLifetime
  · have hadd : now.add? lifetime = some ⟨now.nanos + lifetime⟩ :=
      Instant.add?_eq_some_iff.mpr ⟨rfl, hcalendar htaken.1 htaken.2⟩
    rw [if_pos htaken, if_neg (by omega), hadd]
    exact ⟨rfl, h.insert id hv _⟩
  · rw [if_neg htaken, if_pos (by omega)]
    exact ⟨rfl, h⟩

theorem call (h : Represents s m now) {c : Call} (hcalendar : c.OnCalendar now) :
    (s.call now c).1 = (m.call now c.asRead).1 ∧
      Represents (s.call now c).2 (m.call now c.asRead).2 now := by
  cases c with
  | create id r lifetime => exact h.write id (read_toFields r) (hcalendar lifetime rfl)
  | insertLegacy id text lifetime => exact h.write id rfl (hcalendar lifetime rfl)
  | read id => exact ⟨congrArg Answer.found (h.agree now (Int.le_refl _) id), h.read id⟩
  | delete id => exact ⟨rfl, h.erase id⟩
  | count => exact ⟨congrArg Answer.counted h.count_eq, h⟩

theorem answers (h : Represents s m now) {calls : List (Instant × Call)}
    (hclock : calls.Pairwise fun c c' => c.1 ≤ c'.1) (hnow : ∀ c ∈ calls, now ≤ c.1)
    (hcalendar : ∀ c ∈ calls, c.2.OnCalendar c.1) :
    s.answers calls = m.answers (calls.map fun c => (c.1, c.2.asRead)) := by
  induction calls generalizing s m now with
  | nil => rfl
  | cons c calls ih =>
    obtain ⟨time, c⟩ := c
    rw [List.forall_mem_cons] at hnow hcalendar
    obtain ⟨hfirst, hclock⟩ := List.pairwise_cons.mp hclock
    obtain ⟨hanswer, hafter⟩ := (h.later hnow.1).call hcalendar.1
    exact congrArg₂ List.cons hanswer (ih hafter hclock hfirst hcalendar.2)

end Represents

theorem Store.answers_eq {calls : List (Instant × Call)}
    (hclock : calls.Pairwise fun c c' => c.1 ≤ c'.1)
    (hcalendar : ∀ c ∈ calls, c.2.OnCalendar c.1) :
    empty.answers calls = TimedMap.empty.answers (calls.map fun c => (c.1, c.2.asRead)) := by
  cases calls with
  | nil => rfl
  | cons c calls =>
    refine (Represents.empty c.1).answers hclock ?_ hcalendar
    exact List.forall_mem_cons.mpr ⟨Int.le_refl _, (List.pairwise_cons.mp hclock).1⟩

/-- Every answer of the store is that of a map whose entries count until an instant: what is written
is there to the nanosecond before its lifetime is over, up to empty names and emails, which count as
absent. No record is ever corrupt, and looking more often changes no other answer. -/
theorem Store.refines_timedMap {calls : List (Instant × Call)}
    (hclock : calls.Pairwise fun c c' => c.1 ≤ c'.1)
    (hcalendar : ∀ c ∈ calls, c.2.OnCalendar c.1) :
    empty.answers calls = TimedMap.empty.answers (calls.map fun c => (c.1, c.2.asRead)) ∧
      (∀ fault, .found (.error (.corrupt fault)) ∉ empty.answers calls) ∧
      ∀ marks : List Bool, (∀ (i : Nat) (time : Instant) (c : Call), marks[i]? = some true →
          calls[i]? = some (time, c) → c.Looks) →
        without marks (empty.answers calls) = empty.answers (without marks calls) := by
  have hanswers := answers_eq hclock hcalendar
  refine ⟨hanswers, fun fault => ?_, fun marks hmarks => ?_⟩
  · rw [hanswers]
    exact TimedMap.corrupt_not_mem_answers _ _ fault
  · have hsublist := without_sublist marks calls
    have hrest := answers_eq (hclock.sublist hsublist) fun c hc => hcalendar c (hsublist.subset hc)
    rw [hanswers, hrest, ← without_map]
    apply TimedMap.without_answers
    intro i time c hmark hcall
    rw [List.getElem?_map, Option.map_eq_some_iff] at hcall
    obtain ⟨⟨time, c⟩, hc, hmap⟩ := hcall
    obtain ⟨rfl, rfl⟩ := Prod.mk.inj hmap
    exact Call.looks_asRead (hmarks i time c hmark hc)

namespace Sample

def record : Record where
  subject := 7
  role := .member
  subscription := .active
  name := some "Ada"
  email := some "ada@example.org"

def calls : List (Instant × Call) :=
  [(⟨0⟩, .create "first" record 5), (⟨1⟩, .create "second" record 0), (⟨3⟩, .read "first"),
    (⟨4⟩, .insertLegacy "first" "7" 5), (⟨8⟩, .count), (⟨8⟩, .read "first"), (⟨9⟩, .count),
    (⟨9⟩, .read "first"), (⟨9⟩, .delete "first")]

def marks : List Bool := [false, false, false, false, true, true, true, true]

end Sample

theorem Store.refines_timedMap_sample :
    Sample.calls.Pairwise (fun c c' => c.1 ≤ c'.1) ∧
      (∀ c ∈ Sample.calls, c.2.OnCalendar c.1) ∧
      empty.answers Sample.calls = TimedMap.empty.answers Sample.calls ∧
      without Sample.marks (empty.answers Sample.calls) =
        [.done (.ok ()), .done (.error .badLifetime), .found (.ok (.record Sample.record)),
          .done (.ok ()), .done (.ok ())] := by
  have hclock : Sample.calls.Pairwise (fun c c' => c.1 ≤ c'.1) := by decide
  have hcalendar : ∀ c ∈ Sample.calls, c.2.OnCalendar c.1 := by
    simp [Sample.calls, Call.OnCalendar, Call.lifetime?]
    decide
  have hmarks : ∀ (i : Nat) (time : Instant) (c : Call), Sample.marks[i]? = some true →
      Sample.calls[i]? = some (time, c) → c.Looks := by
    intro i time c hmark hcall
    rcases i with - | - | - | - | - | - | - | - | i <;> cases hmark <;> cases hcall <;> trivial
  obtain ⟨hanswers, -, hwithout⟩ := refines_timedMap hclock hcalendar
  have hsame : Sample.calls.map (fun c => (c.1, c.2.asRead)) = Sample.calls := by decide
  rw [hsame] at hanswers
  refine ⟨hclock, hcalendar, hanswers, (hwithout Sample.marks hmarks).trans ?_⟩
  with_unfolding_all rfl

def Sample.blank : List (Instant × Call) :=
  [(⟨0⟩, .create "first" { Sample.record with name := some "" } 5), (⟨1⟩, .read "first")]

/-- A record does not come back as it was given where a name in it is empty. -/
theorem Store.answers_blank_ne :
    Sample.blank.Pairwise (fun c c' => c.1 ≤ c'.1) ∧
      (∀ c ∈ Sample.blank, c.2.OnCalendar c.1) ∧
      empty.answers Sample.blank ≠ TimedMap.empty.answers Sample.blank := by
  refine ⟨by decide, ?_, ?_⟩
  · simp [Sample.blank, Call.OnCalendar, Call.lifetime?]
    decide
  · have hread : empty.answers Sample.blank =
        [.done (.ok ()), .found (.ok (.record { Sample.record with name := none }))] := by
      with_unfolding_all rfl
    have hgiven : TimedMap.empty.answers Sample.blank =
        [.done (.ok ()), .found (.ok (.record { Sample.record with name := some "" }))] := rfl
    rw [hread, hgiven]
    simp

end SessionGate.Session
