import SessionGate.Proofs.Clock.Instant
import SessionGate.Proofs.Service.Run
import SessionGate.Proofs.Session.Record

/-!
What operations do to the live sessions. Only two of them change what is live: a record that is stored
and an id that is deleted. Programs without either keep every session as it is, and the time with it.
-/

namespace SessionGate

/-- No operation of the store is chosen to fail. -/
structure World.StoreWorks (w : World) : Prop where
  create : w.faults.create = none
  read : w.faults.read = none
  delete : w.faults.delete = none

/-- What an operation never touches. -/
structure World.SameSetting (w w' : World) : Prop where
  clock : w'.clock = w.clock
  faults : w'.faults = w.faults
  directory : w'.directory = w.directory

theorem World.SameSetting.storeWorks {w w' : World} (h : w.SameSetting w')
    (hworks : w.StoreWorks) : w'.StoreWorks := by
  constructor
  · rw [h.faults]
    exact hworks.create
  · rw [h.faults]
    exact hworks.read
  · rw [h.faults]
    exact hworks.delete

def Effect.IsWrite : {β : Type} → Effect β → Prop
  | _, .create _ _ _ => True
  | _, .delete _ => True
  | _, _ => False

def Effect.IsDraw : {β : Type} → Effect β → Prop
  | _, .draw => True
  | _, _ => False

def Effect.written? : {β : Type} → Effect β → Option String
  | _, .create id _ _ => some id
  | _, .delete id => some id
  | _, _ => none

namespace World

theorem sameSetting_perform (w : World) (op : Effect β) : w.SameSetting (w.perform op).2 := by
  cases op with
  | create id r lifetime =>
    simp only [perform, create]
    cases w.faults.create with
    | some fault => exact ⟨rfl, rfl, rfl⟩
    | none =>
      cases w.store.create w.clock id r lifetime with
      | ok store => exact ⟨rfl, rfl, rfl⟩
      | error fault => cases fault <;> exact ⟨rfl, rfl, rfl⟩
  | read id =>
    simp only [perform, read]
    cases w.faults.read <;> exact ⟨rfl, rfl, rfl⟩
  | delete id =>
    simp only [perform, delete]
    cases w.faults.delete <;> exact ⟨rfl, rfl, rfl⟩
  | _ => exact ⟨rfl, rfl, rfl⟩

theorem perform_create {w : World} (hworks : w.StoreWorks) (id : String) (r : Session.Record)
    (lifetime : Nat) :
    w.perform (.create id r lifetime) = match Session.Store.expiry w.clock lifetime with
      | .ok expiry =>
        (.ok (.ok ()), { w with store := w.store.insert id ⟨.fields r.toFields, expiry⟩ })
      | .error .badLifetime => (.ok (.error .badLifetime), w)
      | .error .pastCalendar => (.error {}, w) := by
  simp only [perform, create, hworks.create, Session.Store.create, Session.Store.write]
  cases Session.Store.expiry w.clock lifetime with
  | ok expiry => rfl
  | error fault => cases fault <;> rfl

theorem perform_delete {w : World} (hworks : w.StoreWorks) (id : String) :
    w.perform (.delete id) = (.ok (.ok ()), { w with store := w.store.erase id }) := by
  simp only [perform, delete, hworks.delete]
  rfl

theorem live?_perform {w : World} {op : Effect β} (hop : ¬ op.IsWrite) {later : Instant}
    (hlater : w.clock ≤ later) (k : String) :
    (w.perform op).2.store.live? later k = w.store.live? later k := by
  cases op with
  | create id r lifetime => exact absurd trivial hop
  | delete id => exact absurd trivial hop
  | read id =>
    simp only [perform, read]
    cases w.faults.read with
    | some fault => rfl
    | none => exact Session.Store.live?_read hlater w.store id k
  | _ => rfl

/-- The live sessions are the same, now and from now on, and so are the time and the rest. -/
structure SameSessions (w w' : World) : Prop extends w.SameSetting w' where
  live : ∀ later, w.clock ≤ later → w'.store.live? later = w.store.live? later

theorem SameSessions.refl (w : World) : w.SameSessions w := ⟨⟨rfl, rfl, rfl⟩, fun _ _ => rfl⟩

theorem SameSessions.trans {u v w : World} (h : u.SameSessions v) (h' : v.SameSessions w) :
    u.SameSessions w where
  clock := h'.clock.trans h.clock
  faults := h'.faults.trans h.faults
  directory := h'.directory.trans h.directory
  live later hlater := (h'.live later (h.clock ▸ hlater)).trans (h.live later hlater)

theorem sameSessions_perform (w : World) {op : Effect β} (hop : ¬ op.IsWrite) :
    w.SameSessions (w.perform op).2 where
  toSameSetting := w.sameSetting_perform op
  live _ hlater := funext fun k => live?_perform hop hlater k

/-- From now on an id has this entry, as far as it is not spent. -/
def Shows (w : World) (id : String) (e : Option Session.Entry) : Prop :=
  ∀ later, w.clock ≤ later → w.store.live? later id = e.filter (later < ·.expiry)

variable {w w' : World} {id : String} {e : Option Session.Entry}

theorem Shows.read (h : w.Shows id e) (hworks : w.StoreWorks) :
    (w.read id).1 = match e.filter (w.clock < ·.expiry) with
      | some e => e.value.read
      | none => .error .notFound := by
  have hlive := h w.clock (Int.le_refl _)
  simp only [World.read, hworks.read, Session.Store.read, hlive]
  cases e.filter (w.clock < ·.expiry) <;> rfl

theorem Shows.identityOf_spent (h : w.Shows id e) (hworks : w.StoreWorks) (d : Deployment)
    (he : ∀ entry, e = some entry → entry.expiry ≤ w.clock) :
    d.identityOf id (w.read id).1 = .error .noSession := by
  have hnone : e.filter (w.clock < ·.expiry) = none := by
    rw [Option.filter_eq_none_iff]
    intro entry hentry hlt
    exact Instant.not_lt.mpr (he entry hentry) (of_decide_eq_true hlt)
  rw [h.read hworks, hnone]
  rfl

theorem Shows.identityOf_live {r : Session.Record} {expiry : Instant}
    (h : w.Shows id (some ⟨.fields r.toFields, expiry⟩)) (hworks : w.StoreWorks) (d : Deployment)
    (hlt : w.clock < expiry) :
    d.identityOf id (w.read id).1 = .ok (Identity.ofRecord id r.asRead) := by
  have hsome : (some (⟨.fields r.toFields, expiry⟩ : Session.Entry)).filter (w.clock < ·.expiry) =
      some ⟨.fields r.toFields, expiry⟩ := by
    rw [Option.filter, if_pos (decide_eq_true hlt)]
  rw [h.read hworks, hsome]
  dsimp only
  rw [Session.read_toFields]
  rfl

theorem shows_create (hworks : w.StoreWorks) {r : Session.Record} {lifetime : Nat}
    (h : w.perform (.create id r lifetime) = (.ok (.ok ()), w')) :
    ∃ expiry, Session.Store.expiry w.clock lifetime = .ok expiry ∧
      w'.Shows id (some ⟨.fields r.toFields, expiry⟩) := by
  rw [perform_create hworks] at h
  cases hexpiry : Session.Store.expiry w.clock lifetime with
  | error fault =>
    rw [hexpiry] at h
    cases fault <;> cases h
  | ok expiry =>
    rw [hexpiry] at h
    obtain ⟨-, rfl⟩ := Prod.mk.inj h
    refine ⟨expiry, rfl, fun later _ => ?_⟩
    rw [Session.Store.live?_insert, if_pos rfl]
    simp [Option.filter]

theorem shows_delete (hworks : w.StoreWorks) (id : String) :
    (w.perform (.delete id)).2.Shows id none := by
  intro later _
  rw [perform_delete hworks]
  simp only [Session.Store.live?_erase, if_true]
  rfl

/-- An operation leaves alone what an id shows, unless it stores or deletes that id. -/
theorem Shows.perform (h : w.Shows id e) (hworks : w.StoreWorks) {op : Effect β}
    (hop : op.written? ≠ some id) : (w.perform op).2.Shows id e := by
  intro later hlater
  rw [(w.sameSetting_perform op).clock] at hlater
  by_cases hwrite : op.IsWrite
  · cases op with
    | create k r lifetime =>
      have hk : id ≠ k := fun hk => hop (congrArg some hk.symm)
      rw [perform_create hworks]
      cases Session.Store.expiry w.clock lifetime with
      | ok expiry =>
        rw [Session.Store.live?_insert, if_neg hk]
        exact h later hlater
      | error fault => cases fault <;> exact h later hlater
    | delete k =>
      have hk : id ≠ k := fun hk => hop (congrArg some hk.symm)
      rw [perform_delete hworks]
      simp only [Session.Store.live?_erase, if_neg hk]
      exact h later hlater
    | _ => cases hwrite
  · rw [live?_perform hwrite hlater]
    exact h later hlater

end World

namespace Program

/-- Every operation that a program may come to is allowed. -/
def Only (allowed : {β : Type} → Effect β → Prop) : Program Effect α → Prop
  | done _ => True
  | ask op next => allowed op ∧ ∀ b, (next b).Only allowed

section

variable {allowed : {β : Type} → Effect β → Prop}

theorem only_pure (a : α) : (pure a : Program Effect α).Only allowed := trivial

theorem only_perform {op : Effect β} (h : allowed op) : (perform op).Only allowed :=
  ⟨h, fun _ => trivial⟩

theorem only_bind {p : Program Effect α} {f : α → Program Effect β} (hp : p.Only allowed)
    (hf : ∀ a, (f a).Only allowed) : (p >>= f).Only allowed := by
  induction p with
  | done a => exact hf a
  | ask op next ih => exact ⟨hp.1, fun b => ih b (hp.2 b)⟩

theorem Only.mono {p : Program Effect α} {wider : {β : Type} → Effect β → Prop}
    (h : p.Only allowed) (hwider : ∀ {β : Type} (op : Effect β), allowed op → wider op) :
    p.Only wider := by
  induction p with
  | done a => trivial
  | ask op next ih => exact ⟨hwider op h.1, fun b => ih b (h.2 b)⟩

theorem only_serve_bind {s : Serve α} {f : α → Serve β} (hs : s.run.Only allowed)
    (hf : ∀ a, (f a).run.Only allowed) : (s >>= f).run.Only allowed := by
  change (s.run >>= ExceptT.bindCont f).Only allowed
  apply only_bind hs
  intro result
  cases result with
  | ok a => exact hf a
  | error r => trivial

theorem only_serve_perform {op : Effect β} (h : allowed op) :
    (Serve.perform op).run.Only allowed :=
  only_bind (only_perform h) fun _ => trivial

end

def Plain (p : Program Effect α) : Prop := p.Only fun op => ¬ op.IsWrite ∧ ¬ op.IsDraw

def Reads (p : Program Effect α) : Prop := p.Only fun op => ¬ op.IsWrite

theorem Plain.reads {p : Program Effect α} (h : p.Plain) : p.Reads :=
  Only.mono h fun _ hop => hop.1

end Program

theorem World.sameSessions_run (w : World) {p : Program Effect α} (hp : p.Reads) :
    w.SameSessions (w.run p).2 := by
  induction p generalizing w with
  | done a => exact .refl w
  | ask op next ih =>
    have hop := w.sameSessions_perform hp.1
    rw [run_ask]
    revert hop
    obtain ⟨answer, w'⟩ := w.perform op
    intro hop
    cases answer with
    | error past => exact hop
    | ok b => exact hop.trans (ih b w' (hp.2 b))

end SessionGate
