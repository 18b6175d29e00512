import SessionGate.Proofs.Session.Record
import SessionGate.Redis.Server
import SessionGate.Session.Redis

/-!
What a server makes of the accesses to a session. A read is decided by the value under the key, a
creation leaves a hash of the record until its whole seconds are over, and no write makes a value of an
unknown kind.
-/

namespace SessionGate.Redis

/-- What the value of a key is taken for. -/
def stored : Option Value → Except Session.StoreFault Session.Stored
  | none => .error .notFound
  | some (.hash fields) => Session.Value.read (.fields fields)
  | some (.text text) => .ok (.scalar text)
  | some (.other kind) => .error (.corrupt (.unexpectedKind kind))

/-- A kind without a constructor of its own does not go by the name of one that has it. -/
def Value.Proper : Value → Prop
  | hash _ | text _ => True
  | other kind => kind ≠ "none" ∧ kind ≠ "hash" ∧ kind ≠ "string"

/-- The value that a write puts under its key, whatever it finds there. -/
def Write.Makes (P : String → Value → Prop) : Write → Prop
  | setText key text => P key (.text text)
  | setFields key _ => ∀ fields, P key (.hash fields)
  | delete _ | expire _ _ => True

theorem Write.makes_proper (w : Write) : w.Makes fun _ v => v.Proper := by
  cases w <;> simp [Makes, Value.Proper]

namespace Server

def handle (now : Instant) {β : Type} (c : Command β) : StateM Server β := fun s => s.perform now c

/-- Runs an access whose commands nothing comes between. -/
def run (s : Server) (now : Instant) (p : Program Command α) : α × Server := p.run (handle now) s

theorem value?_erase (s : Server) (now : Instant) (key k : String) :
    (s.erase key).value? now k = if k = key then none else s.value? now k := by
  rw [value?, held?_erase]
  split <;> rfl

theorem value?_put (s : Server) (now : Instant) (key k : String) (e : Entry) :
    (s.put key e).value? now k =
      if k = key then (if e.isLive now then some e.value else none) else s.value? now k := by
  rw [value?, held?_put]
  by_cases h : k = key
  · rw [if_pos h, if_pos h]
    split <;> rfl
  · rw [if_neg h, if_neg h, value?]

/-- What is under each key, spent or not, satisfies a predicate. -/
def Keeps (P : String → Value → Prop) (s : Server) : Prop :=
  ∀ key e, s.entries.lookup key = some e → P key e.value

def Proper (s : Server) : Prop := s.Keeps fun _ v => v.Proper

namespace Keeps

variable {P : String → Value → Prop} {s : Server}

theorem empty : Server.empty.Keeps P := fun _ _ h => nomatch h

theorem erase (h : s.Keeps P) (key : String) : (s.erase key).Keeps P := by
  intro k e he
  rw [Server.erase, lookup_filter_ne] at he
  split at he
  · cases he
  · exact h k e he

theorem put (h : s.Keeps P) {key : String} (e : Entry) (he : P key e.value) :
    (s.put key e).Keeps P := by
  intro k e' he'
  rw [Server.put, List.lookup_cons] at he'
  by_cases hk : k = key
  · subst hk
    simp only [beq_self_eq_true] at he'
    obtain rfl := Option.some.inj he'
    exact he
  · rw [beq_eq_false_iff_ne.mpr hk] at he'
    exact h.erase key k e' he'

theorem held (h : s.Keeps P) {now : Instant} {key : String} {e : Entry}
    (he : s.held? now key = some e) : P key e.value :=
  h key e (Option.filter_eq_some_iff.mp he).1

theorem value (h : s.Keeps P) {now : Instant} {key : String} {v : Value}
    (hv : s.value? now key = some v) : P key v := by
  obtain ⟨e, he, rfl⟩ := Option.map_eq_some_iff.mp hv
  exact h.held he

theorem write (h : s.Keeps P) (now : Instant) {w : Write} (hw : w.Makes P) :
    (s.write now w).2.Keeps P := by
  cases w with
  | delete key => exact h.erase key
  | setText key text => exact h.put ⟨.text text, none⟩ hw
  | setFields key fields =>
    simp only [Server.write]
    split
    · exact h.put ⟨.hash (setFields [] fields), none⟩ (hw _)
    · next old expiry _ => exact h.put ⟨.hash (setFields old fields), expiry⟩ (hw _)
    · exact h
  | expire key seconds =>
    simp only [Server.write]
    split
    · exact h
    · next e he =>
      have hkept := h.held he
      split
      · exact h.erase key
      · exact h.put _ hkept

theorem writeAll (h : s.Keeps P) (now : Instant) {writes : List Write}
    (hwrites : ∀ w ∈ writes, w.Makes P) : (s.writeAll now writes).2.Keeps P := by
  induction writes generalizing s with
  | nil => exact h
  | cons w writes ih =>
    rw [List.forall_mem_cons] at hwrites
    exact ih (h.write now hwrites.1) hwrites.2

end Keeps

end Server

/-- What hash and text replies are taken for. -/
def ofFieldsReply : Reply Session.Fields → Except Session.StoreFault Session.Stored
  | .error _ => .error .unavailable
  | .ok fields => Session.Value.read (.fields fields)

def ofTextReply : Reply (Option String) → Except Session.StoreFault Session.Stored
  | .error _ => .error .unavailable
  | .ok (some text) => .ok (.scalar text)
  | .ok none => .error .notFound

/-- What is left of a read once the kind of the key is told. -/
def afterKind (id : String) :
    Reply String → Program Command (Except Session.StoreFault Session.Stored)
  | .error _ => .done (.error .unavailable)
  | .ok kind =>
    if kind = "none" then .done (.error .notFound)
    else if kind = "hash" then .ask (.fields id) fun reply => .done (ofFieldsReply reply)
    else if kind = "string" then .ask (.text id) fun reply => .done (ofTextReply reply)
    else .done (.error (.corrupt (.unexpectedKind kind)))

theorem readFields_eq (id : String) : Session.Redis.readFields id =
    Program.ask (.fields id) fun reply => .done (ofFieldsReply reply) := by
  refine congrArg (Program.ask _) (funext fun reply => ?_)
  rcases reply with - | (- | ⟨field, fields⟩) <;> rfl

theorem readText_eq (id : String) : Session.Redis.readText id =
    Program.ask (.text id) fun reply => .done (ofTextReply reply) := by
  refine congrArg (Program.ask _) (funext fun reply => ?_)
  rcases reply with - | (- | text) <;> rfl

theorem read_eq (id : String) : Session.Redis.read id = Program.ask (.kind id) (afterKind id) := by
  refine congrArg (Program.ask _) (funext fun reply => ?_)
  cases reply with
  | error fault => rfl
  | ok kind =>
    rw [afterKind, ← readFields_eq, ← readText_eq]
    rfl

namespace Server

theorem run_send (s : Server) (now : Instant) (c : Command (Reply α)) :
    s.run now (Session.Redis.send c) =
      ((s.perform now c).1.mapError fun _ => .unavailable, (s.perform now c).2) := rfl

theorem run_fields {s : Server} (h : s.Proper) (now : Instant) (id : String) :
    s.run now (.ask (.fields id) fun reply => .done (ofFieldsReply reply)) =
      (if (s.value? now id).any (·.kind ≠ "hash") then .error .unavailable
        else stored (s.value? now id), s) := by
  change (ofFieldsReply (s.perform now (.fields id)).1, (s.perform now (.fields id)).2) = _
  cases hvalue : s.value? now id with
  | none => simp only [perform, hvalue]; rfl
  | some v =>
    cases v with
    | hash fields => simp only [perform, hvalue]; rfl
    | text text => simp only [perform, hvalue]; rfl
    | other kind =>
      have hother : kind ≠ "hash" := (Keeps.value h hvalue).2.1
      rw [Option.any_some, Value.kind, if_pos (decide_eq_true hother)]
      simp only [perform, hvalue]
      rfl

theorem run_text {s : Server} (h : s.Proper) (now : Instant) (id : String) :
    s.run now (.ask (.text id) fun reply => .done (ofTextReply reply)) =
      (if (s.value? now id).any (·.kind ≠ "string") then .error .unavailable
        else stored (s.value? now id), s) := by
  change (ofTextReply (s.perform now (.text id)).1, (s.perform now (.text id)).2) = _
  cases hvalue : s.value? now id with
  | none => simp only [perform, hvalue]; rfl
  | some v =>
    cases v with
    | hash fields => simp only [perform, hvalue]; rfl
    | text text => simp only [perform, hvalue]; rfl
    | other kind =>
      have hother : kind ≠ "string" := (Keeps.value h hvalue).2.2
      rw [Option.any_some, Value.kind, if_pos (decide_eq_true hother)]
      simp only [perform, hvalue]
      rfl

/-- A value that its own command is sent for is answered with, unless one of another kind has come. -/
theorem run_afterKind {s : Server} (h : s.Proper) (now : Instant) (id : String) {kind : String}
    (hkind : kind = "hash" ∨ kind = "string") :
    s.run now (afterKind id (.ok kind)) =
      (if (s.value? now id).any (·.kind ≠ kind) then .error .unavailable
        else stored (s.value? now id), s) := by
  rcases hkind with rfl | rfl
  · exact run_fields h now id
  · exact run_text h now id

theorem afterKind_other {v : Value} (h : v.Proper) (hhash : v.kind ≠ "hash")
    (hstring : v.kind ≠ "string") (id : String) :
    afterKind id (.ok v.kind) = .done (stored (some v)) := by
  cases v with
  | hash fields => exact absurd rfl hhash
  | text text => exact absurd rfl hstring
  | other kind =>
    rw [Value.kind] at hhash hstring ⊢
    rw [afterKind, if_neg h.1, if_neg hhash, if_neg hstring]
    rfl

theorem run_read {s : Server} (h : s.Proper) (now : Instant) (id : String) :
    s.run now (Session.Redis.read id) = (stored (s.value? now id), s) := by
  rw [read_eq]
  change s.run now (afterKind id (.ok ((s.value? now id).elim "none" Value.kind))) = _
  cases hvalue : s.value? now id with
  | none => rfl
  | some v =>
    rw [Option.elim_some]
    by_cases hkind : v.kind = "hash" ∨ v.kind = "string"
    · rw [run_afterKind h now id hkind, hvalue, if_neg (by simp)]
    · obtain ⟨hhash, hstring⟩ := not_or.mp hkind
      rw [afterKind_other (Keeps.value h hvalue) hhash hstring]
      rfl

theorem run_delete (s : Server) (now : Instant) (id : String) :
    s.run now (Session.Redis.delete id) = (.ok (), s.erase id) := rfl

theorem setFields_toFields (r : Session.Record) : setFields [] r.toFields = r.toFields := rfl

/-- The server on which a record was stored for some seconds. -/
def created (s : Server) (now : Instant) (id : String) (r : Session.Record) (seconds : Nat) : Server :=
  ((s.erase id).put id ⟨.hash r.toFields, none⟩).put id
    ⟨.hash r.toFields, some ⟨now.nanos + seconds * second⟩⟩

theorem writeAll_createWrites (s : Server) (now : Instant) (id : String) (r : Session.Record)
    {seconds : Nat} (hpos : 0 < seconds) (hseconds : (Int64.ofNat seconds).toInt = seconds) :
    s.writeAll now (Session.Redis.createWrites id r seconds) =
      (.ok (), s.created now id r seconds) := by
  have hdelete : s.write now (.delete id) = (.ok (), s.erase id) := rfl
  have hfirst : (s.erase id).held? now id = none := by
    rw [held?_erase, if_pos rfl]
  have hset : (s.erase id).write now (.setFields id r.toFields) =
      (.ok (), (s.erase id).put id ⟨.hash r.toFields, none⟩) := by
    simp only [write, hfirst, setFields_toFields]
  have hheld : ((s.erase id).put id ⟨.hash r.toFields, none⟩).held? now id =
      some ⟨.hash r.toFields, none⟩ := by
    rw [held?_put, if_pos rfl]
    rfl
  have hspan : ¬ Int64.ofNat seconds ≤ 0 := by
    rw [Int64.le_iff_toInt_le, hseconds]
    simp; omega
  have hexpire : ((s.erase id).put id ⟨.hash r.toFields, none⟩).write now
      (.expire id (Int64.ofNat seconds)) = (.ok (), s.created now id r seconds) := by
    simp only [write, hheld, if_neg hspan, hseconds, created]
  simp only [Session.Redis.createWrites, writeAll, hdelete, hset, hexpire]
  rfl

theorem value?_created (s : Server) (now later : Instant) (id k : String) (r : Session.Record)
    (seconds : Nat) : (s.created now id r seconds).value? later k =
      if k = id then
        if later.nanos < now.nanos + seconds * second then some (.hash r.toFields) else none
      else s.value? later k := by
  rw [created, value?_put, value?_put, value?_erase]
  by_cases h : k = id
  · rw [if_pos h, if_pos h]
    simp only [Entry.isLive, Option.all_some, decide_eq_true_eq]
    rfl
  · simp only [if_neg h]

theorem proper_created {s : Server} (h : s.Proper) (now : Instant) (id : String) (r : Session.Record)
    (seconds : Nat) : (s.created now id r seconds).Proper :=
  Keeps.put (Keeps.put (Keeps.erase h id) ⟨.hash r.toFields, none⟩ trivial)
    ⟨.hash r.toFields, some ⟨now.nanos + seconds * second⟩⟩ trivial

theorem run_create (s : Server) (now : Instant) (id : String) (r : Session.Record) {lifetime : Nat}
    (hleast : 1000000000 ≤ lifetime) (hmost : lifetime ≤ Session.Store.longestLifetime) :
    s.run now (Session.Redis.create id r lifetime) =
      (.ok (), s.created now id r (Session.Redis.wholeSeconds lifetime)) := by
  have hsplit : Session.Redis.wholeSeconds lifetime = lifetime / 1000000000 := rfl
  have hlongest : Session.Store.longestLifetime = 9223372036854775807000000 := rfl
  have hpos : 0 < Session.Redis.wholeSeconds lifetime := by omega
  have hperform : s.perform now (.transaction
      (Session.Redis.createWrites id r (Session.Redis.wholeSeconds lifetime))) =
        (.ok (), s.created now id r (Session.Redis.wholeSeconds lifetime)) :=
    writeAll_createWrites s now id r hpos (Int64.toInt_ofNat_of_lt (by omega))
  rw [Session.Redis.create, if_neg (by omega), run_send, hperform]
  rfl

end Server

end SessionGate.Redis
