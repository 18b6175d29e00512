import SessionGate.Proofs.Redis.Server
import SessionGate.Proofs.Session.TimedMap

/-!
The store in memory and the store on a server answer alike. Both keep what is written until an instant;
the server's comes first, by what a lifetime has over its whole seconds. Main statement:
`Agreement.alike`, for every sequence of calls at times that never go back.
-/

namespace SessionGate.Session

/-- What every store can be called for. -/
inductive StoreCall
  | create (id : String) (r : Record) (lifetime : Nat)
  | read (id : String)
  | delete (id : String)
deriving DecidableEq, Repr

namespace StoreCall

def toCall : StoreCall → Call
  | create id r lifetime => .create id r lifetime
  | read id => .read id
  | delete id => .delete id

/-- A record is stored for a second at least, and ends within the calendar. -/
def Taken (now : Instant) : StoreCall → Prop
  | create _ _ lifetime => 1000000000 ≤ lifetime ∧ lifetime ≤ Store.longestLifetime ∧
      Instant.InCalendar ⟨now.nanos + lifetime⟩
  | read _ | delete _ => True

instance (now : Instant) (c : StoreCall) : Decidable (c.Taken now) := by
  cases c <;> unfold Taken <;> infer_instance

end StoreCall

namespace Redis

open SessionGate.Redis (Server)

/-- A call on a server, between whose commands nothing comes. -/
def call (s : Server) (now : Instant) : StoreCall → Answer × Server
  | .create id r lifetime =>
    (.done (s.run now (create id r lifetime)).1, (s.run now (create id r lifetime)).2)
  | .read id => (.found (s.run now (read id)).1, (s.run now (read id)).2)
  | .delete id => (.done (s.run now (delete id)).1, (s.run now (delete id)).2)

def after (s : Server) (calls : List (Instant × StoreCall)) : Server :=
  calls.foldl (fun s c => (call s c.1 c.2).2) s

/-- A server stands for a timed map from an instant on. -/
structure Represents (s : Server) (m : TimedMap) (now : Instant) : Prop where
  proper : s.Proper
  agree : ∀ later, now ≤ later → ∀ id, SessionGate.Redis.stored (s.value? later id) = m.read later id

namespace Represents

variable {s : Server} {m : TimedMap} {now : Instant}

theorem empty (now : Instant) : Represents .empty .empty now :=
  ⟨Server.Keeps.empty, fun _ _ _ => rfl⟩

theorem later (h : Represents s m now) {time : Instant} (hle : now ≤ time) : Represents s m time :=
  ⟨h.proper, fun later hlater => h.agree later (Int.le_trans hle hlater)⟩

theorem created (h : Represents s m now) (id : String) (r : Record) (seconds : Nat) :
    Represents (s.created now id r seconds)
      (m.set id (some (.record r.asRead, now.nanos + seconds * second))) now where
  proper := Server.proper_created h.proper now id r seconds
  agree later hlater k := by
    rw [Server.value?_created, TimedMap.read_set]
    by_cases hk : k = id
    · rw [if_pos hk, if_pos hk, TimedMap.readable]
      split
      · exact read_toFields r
      · rfl
    · rw [if_neg hk, if_neg hk, h.agree later hlater]

theorem erase (h : Represents s m now) (id : String) :
    Represents (s.erase id) (m.set id none) now where
  proper := Server.Keeps.erase h.proper id
  agree later hlater k := by
    rw [Server.value?_erase, TimedMap.read_set]
    by_cases hk : k = id
    · rw [if_pos hk, if_pos hk]
      rfl
    · rw [if_neg hk, if_neg hk, h.agree later hlater]

end Represents

end Redis

open SessionGate.Redis (Server)

/-- The same is written in both, and in the second ends less than a second before it does in the first. -/
def Near : Option (Stored × Int) → Option (Stored × Int) → Prop
  | none, none => True
  | some (value, till), some (value', till') => value' = value ∧ till' ≤ till ∧ till < till' + second
  | _, _ => False

/-- A store and a server after the same calls. -/
structure Agreement (s : Store) (r : Server) (now : Instant) : Prop where
  exists_maps : ∃ m m', Represents s m now ∧ Redis.Represents r m' now ∧
    ∀ id, Near (m.written id) (m'.written id)

/-- The two answers to a call. Writes succeed in both places. What is found on the server is found in
memory; what is found in memory alone has less than a second left. -/
def Alike (s : Store) (r : Server) (now : Instant) : StoreCall → Prop
  | .read id =>
    (∀ v, (Redis.call r now (.read id)).1 = .found (.ok v) →
      (s.call now (.read id)).1 = .found (.ok v)) ∧
    ∀ v, (s.call now (.read id)).1 = .found (.ok v) →
      (Redis.call r now (.read id)).1 = .found (.ok v) ∨
      (Redis.call r now (.read id)).1 = .found (.error .notFound) ∧
        ∃ e, s.live? now id = some e ∧ e.expiry.nanos < now.nanos + second
  | c => (s.call now c.toCall).1 = .done (.ok ()) ∧ (Redis.call r now c).1 = .done (.ok ())

namespace Agreement

variable {s : Store} {r : Server} {now : Instant}

theorem empty (now : Instant) : Agreement .empty .empty now :=
  ⟨_, _, .empty now, .empty now, fun _ => trivial⟩

theorem later (h : Agreement s r now) {time : Instant} (hle : now ≤ time) : Agreement s r time := by
  obtain ⟨m, m', hs, hr, hnear⟩ := h
  exact ⟨m, m', hs.later hle, hr.later hle, hnear⟩

theorem near_set {m m' : TimedMap} (h : ∀ id, Near (m.written id) (m'.written id)) {id : String}
    {held held' : Option (Stored × Int)} (hid : Near held held') (k : String) :
    Near ((m.set id held).written k) ((m'.set id held').written k) := by
  simp only [TimedMap.set]
  split
  · exact hid
  · exact h k

theorem found_of_near {held held' : Option (Stored × Int)} (h : Near held held') {v : Stored}
    (hv : TimedMap.readable now held' = .ok v) : TimedMap.readable now held = .ok v := by
  rcases held with - | ⟨value, till⟩ <;> rcases held' with - | ⟨value', till'⟩
  · exact hv
  · exact h.elim
  · exact h.elim
  · obtain ⟨rfl, hle, -⟩ := h
    rw [TimedMap.readable] at hv ⊢
    split at hv
    · rwa [if_pos (by omega)]
    · cases hv

theorem lost_of_near {held held' : Option (Stored × Int)} (h : Near held held') {v : Stored}
    (hv : TimedMap.readable now held = .ok v) : TimedMap.readable now held' = .ok v ∨
      TimedMap.readable now held' = .error .notFound ∧
        ∃ till, held = some (v, till) ∧ now.nanos < till ∧ till < now.nanos + second := by
  rcases held with - | ⟨value, till⟩ <;> rcases held' with - | ⟨value', till'⟩
  · cases hv
  · exact h.elim
  · exact h.elim
  · obtain ⟨rfl, hle, hlt⟩ := h
    rw [TimedMap.readable] at hv ⊢
    split at hv
    · next hopen =>
      obtain rfl := Except.ok.inj hv
      by_cases hopen' : now.nanos < till'
      · exact .inl (if_pos hopen')
      · exact .inr ⟨if_neg hopen', till, rfl, hopen, by omega⟩
    · cases hv

/-- An entry of the store ends no later than what the map has in its place. -/
theorem expiry_le {m : TimedMap} (h : Represents s m now) {id : String} {e : Entry} {v : Stored}
    {till : Int} (he : s.live? now id = some e) (hm : m.written id = some (v, till))
    (hopen : now.nanos < till) : e.expiry.nanos ≤ till := by
  by_contra hlt
  obtain ⟨hmem, -⟩ := (Store.live?_eq_some_iff h.nodup).mp he
  obtain ⟨v', hv'⟩ := h.decodes _ hmem
  have hlive : s.live? ⟨till⟩ id = some e :=
    (Store.live?_eq_some_iff h.nodup).mpr ⟨hmem, show till < e.expiry.nanos by omega⟩
  have hagree := h.agree ⟨till⟩ (Int.le_of_lt hopen) id
  rw [Store.read_fst, hlive, TimedMap.read, hm, TimedMap.readable, if_neg (Int.lt_irrefl _)] at hagree
  cases hv'.symm.trans hagree

theorem call_read {m' : TimedMap} (h : Redis.Represents r m' now) (id : String) :
    Redis.call r now (.read id) = (.found (m'.read now id), r) := by
  rw [Redis.call, Server.run_read h.proper, h.agree now (Int.le_refl _)]

theorem alike_read {m m' : TimedMap} (hs : Represents s m now) (hr : Redis.Represents r m' now)
    {id : String} (hnear : Near (m.written id) (m'.written id)) : Alike s r now (.read id) := by
  have hfound : (s.call now (.read id)).1 = .found (m.read now id) := (hs.call (c := .read id) nofun).1
  rw [Alike, hfound, call_read hr]
  constructor
  · rintro v hv
    exact congrArg Answer.found (found_of_near hnear (Answer.found.inj hv))
  · intro v hv
    have hv := Answer.found.inj hv
    rcases lost_of_near hnear hv with hsame | ⟨hnone, till, hm, hopen, hshort⟩
    · exact .inl (congrArg Answer.found hsame)
    · refine .inr ⟨congrArg Answer.found hnone, ?_⟩
      have hread := hs.agree now (Int.le_refl _) id
      rw [hv, Store.read_fst] at hread
      cases he : s.live? now id with
      | none =>
        rw [he] at hread
        cases hread
      | some e => exact ⟨e, rfl, Int.lt_of_le_of_lt (expiry_le hs he hm hopen) hshort⟩

theorem onCalendar {c : StoreCall} (h : c.Taken now) : c.toCall.OnCalendar now := by
  cases c with
  | create id r lifetime =>
    rintro _ ⟨⟩ - -
    exact h.2.2
  | read id | delete id => rintro _ ⟨⟩

theorem call (h : Agreement s r now) {c : StoreCall} (hc : c.Taken now) :
    Alike s r now c ∧ Agreement (s.call now c.toCall).2 (Redis.call r now c).2 now := by
  obtain ⟨m, m', hs, hr, hnear⟩ := h
  obtain ⟨hanswer, hafter⟩ := hs.call (onCalendar hc)
  cases c with
  | create id record lifetime =>
    obtain ⟨hleast, hmost, -⟩ := hc
    have hput : m.put now id (.record record.asRead) lifetime =
        (.done (.ok ()), m.set id (some (.record record.asRead, now.nanos + lifetime))) :=
      if_pos ⟨by omega, hmost⟩
    have hcreate : Redis.call r now (.create id record lifetime) =
        (.done (.ok ()), r.created now id record (Redis.wholeSeconds lifetime)) := by
      rw [Redis.call, Server.run_create r now id record hleast hmost]
    rw [hcreate]
    refine ⟨⟨hanswer.trans (congrArg Prod.fst hput), congrArg Prod.fst hcreate⟩, _, _, hafter,
      hr.created id record _, ?_⟩
    have hend : Near (some (Stored.record record.asRead, now.nanos + lifetime))
        (some (.record record.asRead, now.nanos + Redis.wholeSeconds lifetime * second)) := by
      refine ⟨rfl, ?_, ?_⟩ <;> simp only [Redis.wholeSeconds, second] <;> omega
    intro k
    change Near ((m.put now id (.record record.asRead) lifetime).2.written k) _
    rw [hput]
    exact near_set hnear hend k
  | read id =>
    rw [call_read hr]
    exact ⟨alike_read hs hr (hnear id), m, m', hafter, hr, hnear⟩
  | delete id =>
    have hdelete : Redis.call r now (.delete id) = (.done (.ok ()), r.erase id) := by
      rw [Redis.call, Server.run_delete]
    rw [hdelete]
    exact ⟨⟨hanswer, congrArg Prod.fst hdelete⟩, _, _, hafter, hr.erase id, near_set hnear trivial⟩

/-- Two stores that agree still do after more calls. -/
theorem after (h : Agreement s r now) {calls : List (Instant × StoreCall)}
    (hclock : calls.Pairwise fun c c' => c.1 ≤ c'.1) (hnow : ∀ c ∈ calls, now ≤ c.1)
    (htaken : ∀ c ∈ calls, c.2.Taken c.1) {time : Instant} (hlast : ∀ c ∈ calls, c.1 ≤ time)
    (hle : now ≤ time) :
    Agreement (s.after (calls.map fun c => (c.1, c.2.toCall))) (Redis.after r calls) time := by
  induction calls generalizing s r now with
  | nil => exact h.later hle
  | cons c calls ih =>
    rw [List.forall_mem_cons] at hnow htaken hlast
    obtain ⟨hfirst, hclock⟩ := List.pairwise_cons.mp hclock
    exact ih ((h.later hnow.1).call htaken.1).2 hclock hfirst htaken.2 hlast.2 hlast.1

/-- Whatever was called before, a call gets alike answers from the store in memory and the store on a
server, each of which was empty at first. -/
theorem alike {calls : List (Instant × StoreCall)} (hclock : calls.Pairwise fun c c' => c.1 ≤ c'.1)
    (htaken : ∀ c ∈ calls, c.2.Taken c.1) (before rest : List (Instant × StoreCall)) (now : Instant)
    (c : StoreCall) (hcalls : calls = before ++ (now, c) :: rest) :
    Alike (Store.empty.after (before.map fun c => (c.1, c.2.toCall))) (Redis.after .empty before)
      now c := by
  subst hcalls
  obtain ⟨hbefore, -, hlast⟩ := List.pairwise_append.mp hclock
  have hlast : ∀ c' ∈ before, c'.1 ≤ now := fun c' hc' => hlast c' hc' (now, c) List.mem_cons_self
  rw [List.forall_mem_append, List.forall_mem_cons] at htaken
  obtain ⟨htaken, hc, -⟩ := htaken
  cases before with
  | nil => exact ((empty now).call hc).1
  | cons first before =>
    have hfirst : ∀ c' ∈ first :: before, first.1 ≤ c'.1 :=
      List.forall_mem_cons.mpr ⟨Int.le_refl _, (List.pairwise_cons.mp hbefore).1⟩
    have hagree := (empty first.1).after hbefore hfirst htaken hlast (hlast first List.mem_cons_self)
    exact (hagree.call hc).1

end Agreement

namespace Sample

/-- A record that is stored for one second and nine tenths, and again when half of that is over. -/
def shared : List (Instant × StoreCall) :=
  [(⟨0⟩, .create "first" record 1900000000), (⟨950000000⟩, .create "first" record 1900000000),
    (⟨1949999999⟩, .read "first"), (⟨1950000000⟩, .read "first"), (⟨2850000000⟩, .delete "first")]

end Sample

/-- Up to a second after the second creation the record is found in both places, and then in memory
alone. -/
theorem Agreement.alike_sample :
    Sample.shared.Pairwise (fun c c' => c.1 ≤ c'.1) ∧ (∀ c ∈ Sample.shared, c.2.Taken c.1) ∧
      (Store.call (Store.empty.after ((Sample.shared.take 2).map fun c => (c.1, c.2.toCall)))
        ⟨1949999999⟩ (.read "first")).1 = .found (.ok (.record Sample.record)) ∧
      (Redis.call (Redis.after .empty (Sample.shared.take 3)) ⟨1950000000⟩ (.read "first")).1 =
        .found (.error .notFound) ∧
      ∃ e, (Store.empty.after ((Sample.shared.take 3).map fun c => (c.1, c.2.toCall))).live?
        ⟨1950000000⟩ "first" = some e ∧ e.expiry.nanos < 2950000000 := by
  have hclock : Sample.shared.Pairwise (fun c c' => c.1 ≤ c'.1) := by decide
  have htaken : ∀ c ∈ Sample.shared, c.2.Taken c.1 := by decide +kernel
  have hearly := alike hclock htaken (Sample.shared.take 2) (Sample.shared.drop 3) ⟨1949999999⟩
    (.read "first") rfl
  have hlate := alike hclock htaken (Sample.shared.take 3) (Sample.shared.drop 4) ⟨1950000000⟩
    (.read "first") rfl
  have hserver : (Redis.call (Redis.after .empty (Sample.shared.take 2)) ⟨1949999999⟩
      (.read "first")).1 = .found (.ok (.record Sample.record)) := by
    with_unfolding_all rfl
  have hmemory : (Store.call (Store.empty.after ((Sample.shared.take 3).map fun c => (c.1, c.2.toCall)))
      ⟨1950000000⟩ (.read "first")).1 = .found (.ok (.record Sample.record)) := by
    with_unfolding_all rfl
  have hgone : (Redis.call (Redis.after .empty (Sample.shared.take 3)) ⟨1950000000⟩
      (.read "first")).1 = .found (.error .notFound) := by
    with_unfolding_all rfl
  refine ⟨hclock, htaken, hearly.1 _ hserver, hgone, ?_⟩
  rcases hlate.2 _ hmemory with hsame | ⟨-, he⟩
  · cases hgone.symm.trans hsame
  · exact he

end SessionGate.Session
