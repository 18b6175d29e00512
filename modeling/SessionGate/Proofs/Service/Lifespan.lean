import SessionGate.Proofs.Clock.Instant
import SessionGate.Proofs.Service.Persist

/-!
How long a session is stored. What is left of its token is taken off one reading of the clock and added to
another, and comes out as the token's own end to the nanosecond; once nothing is left, nothing is stored.
Main statement: `Deployment.persist_outcome`.
-/

namespace SessionGate

/-- The time from one instant of the calendar to a later one is a lifetime that ends there. -/
theorem Session.Store.expiry_since {now till : Instant} (hnow : now.InCalendar)
    (htill : till.InCalendar) (h : now < till) : expiry now (till.since now).toNat = .ok till := by
  have hwidth : Instant.last.nanos - Instant.first.nanos < longestLifetime := by decide
  have hfirst : Instant.first.nanos ≤ now.nanos := hnow.1
  have hlast : till.nanos ≤ Instant.last.nanos := htill.2
  rw [Instant.lt_iff] at h
  have hsince : ((till.since now).toNat : Int) = till.nanos - now.nanos :=
    Int.toNat_of_nonneg (by rw [Instant.since]; omega)
  have hend : now.add? (till.since now).toNat = some till :=
    Instant.add?_eq_some_iff.mpr ⟨by omega, htill⟩
  rw [expiry, if_neg (by omega), hend]

namespace Deployment

/-- What is stored for a token: the profile, until the token's end. -/
def entryFor (profile : Profile) (issued : Token.Issued) : Session.Entry where
  value := .fields (Session.Record.ofProfile profile).toFields
  expiry := issued.expiresAt

variable {w : World} {profile : Profile} {issued : Token.Issued}

theorem runServe_persist_alive (hworks : w.faults.create = none) (hnow : w.clock.InCalendar)
    (htill : issued.expiresAt.InCalendar) (h : w.clock < issued.expiresAt) :
    w.runServe (persist profile issued) = (.ok (.ok ()),
      { w with
        store := w.store.insert issued.session (entryFor profile issued)
        notes := w.notes ++ [.created issued.session profile.id] }) := by
  have hleft : ¬ issued.remaining w.clock < 0 := by
    rw [Instant.lt_iff] at h
    rw [Token.Issued.remaining, Instant.since]
    omega
  have hcreate : w.create issued.session (.ofProfile profile) (issued.remaining w.clock).toNat =
      .ok (.ok (), { w with store := w.store.insert issued.session (entryFor profile issued) }) := by
    rw [World.create, hworks]
    dsimp only
    rw [Session.Store.create, Session.Store.write, Token.Issued.remaining,
      Session.Store.expiry_since hnow htill h]
    rfl
  rw [persist, World.runServe_bind, World.runServe_perform]
  dsimp only [World.perform]
  rw [if_neg hleft, World.runServe_bind, World.runServe_perform]
  dsimp only [World.perform]
  rw [hcreate]
  rfl

/-- A token past its end is turned down before the store is asked, one at its end by the store. -/
theorem runServe_persist_spent (hworks : w.faults.create = none) (h : issued.expiresAt ≤ w.clock) :
    ∃ notes, w.runServe (persist profile issued) =
      (.ok (.error (.store .badLifetime)), { w with notes }) := by
  rw [persist, World.runServe_bind, World.runServe_perform]
  dsimp only [World.perform]
  by_cases hleft : issued.remaining w.clock < 0
  · rw [if_pos hleft]
    exact ⟨w.notes, rfl⟩
  · have hzero : (issued.remaining w.clock).toNat = 0 := by
      rw [Instant.le_iff] at h
      rw [Token.Issued.remaining, Instant.since]
      omega
    have hcreate : w.create issued.session (.ofProfile profile) (issued.remaining w.clock).toNat =
        .ok (.error .badLifetime, w) := by
      rw [World.create, hworks, hzero]
      rfl
    rw [if_neg hleft, World.runServe_bind, World.runServe_perform]
    dsimp only [World.perform]
    rw [hcreate]
    exact ⟨_, rfl⟩

/-- What becomes of storing a session for a token, by whether the token has any time left. -/
structure PersistOutcome (w : World) (profile : Profile) (issued : Token.Issued) : Prop where
  stored : w.clock < issued.expiresAt → ∃ w',
    w.runServe (persist profile issued) = (.ok (.ok ()), w') ∧
      (∀ id, w'.store.held? id =
        if id = issued.session then some (entryFor profile issued) else w.store.held? id) ∧
      { w' with store := w.store, notes := w.notes } = w
  refused : issued.expiresAt ≤ w.clock → ∃ w',
    w.runServe (persist profile issued) = (.ok (.error (.store .badLifetime)), w') ∧
      { w' with notes := w.notes } = w

/-- A session is stored if its token has time left, and then until the token's end whatever the time of
storing it. -/
theorem persist_outcome (hworks : w.faults.create = none) (hnow : w.clock.InCalendar)
    (htill : issued.expiresAt.InCalendar) (profile : Profile) : PersistOutcome w profile issued where
  stored h := by
    refine ⟨_, runServe_persist_alive hworks hnow htill h, fun id => ?_, rfl⟩
    exact Session.Store.held?_insert ..
  refused h := by
    obtain ⟨notes, hrefused⟩ : ∃ notes, w.runServe (persist profile issued) =
        (.ok (.error (.store .badLifetime)), { w with notes }) := runServe_persist_spent hworks h
    exact ⟨_, hrefused, rfl⟩

/-- A nanosecond before its end a token's session is still stored, and at its end no longer. -/
theorem persist_outcome_sample :
    (∃ w', World.runServe { Sample.world with clock := ⟨86399999999999⟩ }
        (persist Sample.account.profile Sample.issued) = (.ok (.ok ()), w') ∧
      w'.store.held? "first" = some (entryFor Sample.account.profile Sample.issued)) ∧
    ∃ w', World.runServe { Sample.world with clock := ⟨86400000000000⟩ }
        (persist Sample.account.profile Sample.issued) = (.ok (.error (.store .badLifetime)), w') ∧
      w'.store = .empty := by
  have hoffered : Sample.issued.expiresAt.InCalendar := by decide
  constructor
  · have houtcome := persist_outcome (w := { Sample.world with clock := ⟨86399999999999⟩ }) rfl
      (by decide) hoffered Sample.account.profile
    obtain ⟨w', hrun, hheld, -⟩ := houtcome.stored (by decide)
    exact ⟨w', hrun, hheld "first"⟩
  · have houtcome := persist_outcome (w := { Sample.world with clock := ⟨86400000000000⟩ }) rfl
      (by decide) hoffered Sample.account.profile
    obtain ⟨w', hrun, hsame⟩ := houtcome.refused (by decide)
    exact ⟨w', hrun, congrArg World.store hsame⟩

end Deployment

end SessionGate
