import SessionGate.Proofs.Service.Stack
import SessionGate.Proofs.Session.TimedMap

/-!
From a profile to the identity that its session resolves to. The profile is stored as a record, the
record as texts, and whatever is done to other sessions meanwhile, the texts are read back until the
session ends. Main statement: `Deployment.resolve_persisted`.
-/

namespace SessionGate

namespace Session.Store

variable {s : Store} {now : Instant} {id : String} {e : Entry}

theorem nanos_of_expiry {lifetime : Nat} {till : Instant} (h : expiry now lifetime = .ok till) :
    till.nanos = now.nanos + lifetime := by
  unfold expiry at h
  split at h
  · cases h
  · split at h
    · next till' hadd =>
      obtain rfl := Except.ok.inj h
      exact (Instant.add?_eq_some_iff.mp hadd).1
    · cases h

theorem live?_of_held? (h : s.held? id = some e) (hnow : now < e.expiry) :
    s.live? now id = some e := by
  rw [live?, h, Option.filter_some, if_pos (decide_eq_true hnow)]

theorem held?_written (h : s.held? id = some e) {k : String} (hk : id ≠ k) (value : Value)
    (lifetime : Nat) : (s.written (s.write now k value lifetime)).2.held? id = some e := by
  unfold write
  cases expiry now lifetime with
  | ok till =>
    change (s.insert k ⟨value, till⟩).held? id = _
    rw [held?_insert, if_neg hk, h]
  | error fault => cases fault <;> exact h

/-- An entry is held through every call before its end that does not write its id. -/
theorem held?_call (h : s.held? id = some e) (hnow : now < e.expiry) {c : Call}
    (hc : c.written? ≠ some id) : (s.call now c).2.held? id = some e := by
  cases c with
  | create k r lifetime => exact held?_written h (fun hk => hc (congrArg some hk.symm)) _ lifetime
  | insertLegacy k text lifetime =>
    exact held?_written h (fun hk => hc (congrArg some hk.symm)) _ lifetime
  | read k =>
    change (s.read now k).2.held? id = some e
    unfold read
    split
    · exact h
    · next hspent =>
      -- Only a spent entry is dropped, and this one is not spent.
      have hk : id ≠ k := by
        rintro rfl
        rw [live?_of_held? h hnow] at hspent
        cases hspent
      exact (held?_erase s k id).trans ((if_neg hk).trans h)
  | delete k =>
    change (s.erase k).held? id = some e
    rw [held?_erase, if_neg fun hk => hc (congrArg some hk.symm), h]
  | count => exact h

theorem held?_after {calls : List (Instant × Call)} (h : s.held? id = some e)
    (hbefore : ∀ c ∈ calls, c.1 < e.expiry) (hkept : ∀ c ∈ calls, c.2.written? ≠ some id) :
    (s.after calls).held? id = some e := by
  induction calls generalizing s with
  | nil => exact h
  | cons c calls ih =>
    rw [List.forall_mem_cons] at hbefore hkept
    exact ih (held?_call h hbefore.1 hkept.1) hbefore.2 hkept.2

end Session.Store

namespace Deployment

variable {w w' v : World} {profile : Profile} {issued : Token.Issued}

/-- What is stored for a token ends when the token does. -/
theorem held?_persisted (h : w.runServe (persist profile issued) = (.ok (.ok ()), w')) :
    w'.store.held? issued.session =
      some ⟨.fields (Session.Record.ofProfile profile).toFields, issued.expiresAt⟩ := by
  rw [persist, World.runServe_bind, World.runServe_perform] at h
  dsimp only [World.perform] at h
  split at h
  · cases h
  · next hleft =>
    rw [World.runServe_bind, World.runServe_perform] at h
    dsimp only [World.perform, World.create] at h
    cases hfault : w.faults.create with
    | some fault =>
      rw [hfault] at h
      cases h
    | none =>
      rw [hfault] at h
      unfold Session.Store.create Session.Store.write at h
      cases hexpiry : Session.Store.expiry w.clock (issued.remaining w.clock).toNat with
      | error fault =>
        rw [hexpiry] at h
        cases fault <;> cases h
      | ok till =>
        rw [hexpiry] at h
        obtain ⟨-, rfl⟩ := Prod.mk.inj h
        have hend : till.nanos = w.clock.nanos + (issued.remaining w.clock).toNat :=
          Session.Store.nanos_of_expiry hexpiry
        rw [Int.toNat_of_nonneg (Int.not_lt.mp hleft), Token.Issued.remaining, Instant.since,
          Int.add_comm, Int.sub_add_cancel] at hend
        obtain rfl : till = issued.expiresAt := congrArg Instant.mk hend
        change (w.store.insert _ _).held? _ = _
        rw [Session.Store.held?_insert, if_pos rfl]

theorem resolve_of_held? {id : String} {r : Session.Record} {till : Instant}
    (hheld : v.store.held? id = some ⟨.fields r.toFields, till⟩) (hreads : v.faults.read = none)
    (hlive : v.clock < till) (d : Deployment) :
    (v.runServe (d.resolve id)).1 = .ok (.ok (.ofRecord id r.asRead)) := by
  have hstands : d.StandsFor v id (.ofRecord id r.asRead) :=
    .record _ r.asRead (Session.Store.live?_of_held? hheld hlive) (Session.read_toFields r)
  obtain ⟨notes, hresolve⟩ := d.runServe_resolve v id
  rw [hresolve, identityOf_of_standsFor hreads hstands]

/-- Until a token ends, its session resolves to the profile that was stored for it, whatever is done to
other sessions. A name or an email that is empty counts as absent. -/
theorem resolve_persisted (h : w.runServe (persist profile issued) = (.ok (.ok ()), w'))
    {calls : List (Instant × Session.Call)} (hstore : v.store = w'.store.after calls)
    (hbefore : ∀ c ∈ calls, c.1 < issued.expiresAt)
    (hkept : ∀ c ∈ calls, c.2.written? ≠ some issued.session) (hreads : v.faults.read = none)
    (hlive : v.clock < issued.expiresAt) (d : Deployment) :
    (v.runServe (d.resolve issued.session)).1 = .ok (.ok
      { session := issued.session
        subject := profile.id
        role := some profile.role
        subscription := some profile.subscription
        name := if profile.name = "" then none else some profile.name
        email := if profile.email = "" then none else some profile.email }) := by
  have hheld := Session.Store.held?_after (held?_persisted h) hbefore hkept
  rw [← hstore] at hheld
  rw [resolve_of_held? hheld hreads hlive]
  simp only [Identity.ofRecord, Session.Record.asRead, Session.Record.ofProfile, Option.filter_some,
    decide_eq_true_eq, ne_eq, ite_not]

end Deployment

namespace Sample

def issued : Token.Issued where
  token := "first.token"
  session := "first"
  issuedAt := ⟨0⟩
  expiresAt := ⟨86400000000000⟩

/-- What goes on while the first session lasts: another one comes and goes. -/
def others : List (Instant × Session.Call) :=
  [(⟨600000000⟩, .create "second" (.ofProfile account.profile) 5), (⟨700000000⟩, .read "first"),
    (⟨800000000⟩, .read "second"), (⟨900000000⟩, .delete "second")]

def nameless : Profile := { account.profile with name := "" }

theorem exists_persisted (profile : Profile) : ∃ w', w'.clock = world.clock ∧
    w'.faults = world.faults ∧
    world.runServe (Deployment.persist profile issued) = (.ok (.ok ()), w') :=
  ⟨(world.runServe (Deployment.persist profile issued)).2, rfl, rfl, Prod.ext rfl rfl⟩

end Sample

theorem Deployment.resolve_persisted_sample : ∃ w',
    Sample.world.runServe (persist Sample.account.profile Sample.issued) = (.ok (.ok ()), w') ∧
      (World.runServe { w' with clock := ⟨86399999999999⟩, store := w'.store.after Sample.others }
        (Sample.deployment.resolve "first")).1 = .ok (.ok Sample.member) := by
  obtain ⟨w', -, hfaults, hpersist⟩ := Sample.exists_persisted Sample.account.profile
  let v : World := { w' with clock := ⟨86399999999999⟩, store := w'.store.after Sample.others }
  have hreads : v.faults.read = none := congrArg Faults.read hfaults
  have hlive : v.clock < Sample.issued.expiresAt :=
    show (86399999999999 : Int) < 86400000000000 by decide
  have hresolve := resolve_persisted hpersist (v := v) rfl (by decide) (by decide) hreads hlive
    Sample.deployment
  refine ⟨w', hpersist, hresolve.trans ?_⟩
  simp [Sample.member, Sample.issued, Sample.account, Account.profile]

/-- A profile with an empty name does not come back as it was given. -/
theorem Deployment.resolve_nameless_ne : ∃ w',
    Sample.world.runServe (persist Sample.nameless Sample.issued) = (.ok (.ok ()), w') ∧
      w'.clock < Sample.issued.expiresAt ∧
      (w'.runServe (Sample.deployment.resolve Sample.issued.session)).1 ≠ .ok (.ok
        { session := Sample.issued.session
          subject := Sample.nameless.id
          role := some Sample.nameless.role
          subscription := some Sample.nameless.subscription
          name := some Sample.nameless.name
          email := some Sample.nameless.email }) := by
  obtain ⟨w', hclock, hfaults, hpersist⟩ := Sample.exists_persisted Sample.nameless
  have hreads : w'.faults.read = none := congrArg Faults.read hfaults
  have hlive : w'.clock < Sample.issued.expiresAt := hclock ▸ by decide
  refine ⟨w', hpersist, hlive, ?_⟩
  rw [resolve_of_held? (held?_persisted hpersist) hreads hlive]
  intro h
  exact absurd (congrArg Identity.name (Except.ok.inj (Except.ok.inj h))) (by decide)

end SessionGate
