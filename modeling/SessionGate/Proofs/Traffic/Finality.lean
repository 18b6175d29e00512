import SessionGate.Proofs.Service.Login
import SessionGate.Proofs.Traffic.Ids

/-!
The end of a session is final. What an id shows is settled when it is stored: that record, until the
id is deleted or the record is spent, and from then on nothing, whatever else goes on.
-/

namespace SessionGate

namespace Traffic

variable {d : Deployment} {s t u : Traffic} {acts between rest : List Act} {n : Nat} {id : String}
  {time : Instant} {r : Session.Record} {lifetime : Nat} {e : Option Session.Entry}

theorem Step.perform {op : Effect β} {answer : β} (h : Step d s [⟨n, time, op, answer⟩] t) :
    time = s.world.clock ∧ s.world.perform op = (.ok answer, t.world) := by
  cases h with
  | act _ n op next answer w hn hw => exact ⟨rfl, hw⟩

/-- What an id shows after a step that does not store it. -/
theorem Step.shows (hstep : Step d s acts t) (h : s.world.Shows id e) (hworks : s.world.StoreWorks)
    (hid : id ∉ stored acts) :
    t.world.Shows id (if id ∈ deleted acts then none else e) := by
  cases hstep with
  | arrive _ req => exact h
  | pass _ clock wall hle => exact fun later hlater => h later (Int.le_trans hle hlater)
  | act _ n op next answer w hn hw =>
    obtain rfl : (s.world.perform op).2 = w := congrArg Prod.snd hw
    by_cases hop : op.written? = some id
    · cases op with
      | create k r lifetime =>
        obtain rfl := Option.some.inj hop
        cases answer with
        | ok => exact absurd List.mem_cons_self hid
        | error fault =>
          -- A record that was refused changes nothing.
          rw [World.perform_create hworks] at hw ⊢
          cases hexpiry : Session.Store.expiry s.world.clock lifetime with
          | ok expiry => rw [hexpiry] at hw; cases hw
          | error fault => cases fault <;> exact h
      | delete k =>
        obtain rfl := Option.some.inj hop
        obtain rfl : answer = .ok () := by
          rw [World.perform_delete hworks] at hw
          exact (Except.ok.inj (congrArg Prod.fst hw)).symm
        have hdeleted : k ∈ deleted [⟨n, s.world.clock, .delete k, .ok ()⟩] := List.mem_cons_self
        rw [if_pos hdeleted]
        exact World.shows_delete hworks k
      | _ => cases hop
    · have hkept := h.perform hworks hop
      have hdeleted : id ∉ deleted [⟨n, s.world.clock, op, answer⟩] := by
        cases op with
        | delete k =>
          cases answer with
          | ok => simpa [deleted, Act.deleted?, Effect.written?, eq_comm] using hop
          | error fault => simp [deleted, Act.deleted?]
        | _ => simp [deleted, Act.deleted?]
      rw [if_neg hdeleted]
      exact hkept

theorem Run.shows (hrun : Run d s acts t) (h : s.world.Shows id e) (hworks : s.world.StoreWorks)
    (hid : id ∉ stored acts) :
    t.world.Shows id (if id ∈ deleted acts then none else e) := by
  induction hrun with
  | refl => exact h
  | @step t u acts more hrun hstep ih =>
    rw [stored_append, List.mem_append, not_or] at hid
    have hlast := hstep.shows (ih hid.1) (hrun.storeWorks hworks) hid.2
    by_cases hmore : id ∈ deleted more <;>
      simpa [deleted_append, hmore] using hlast

theorem looked_append (acts more : List Act) :
    looked (acts ++ more) = looked acts ++ looked more := List.filterMap_append ..

theorem Step.looked (hstep : Step d s acts t) {answer : Except Session.StoreFault Session.Stored}
    (h : (id, answer) ∈ looked acts) : answer = (s.world.read id).1 := by
  cases hstep with
  | arrive _ req => cases h
  | pass _ clock wall hle => cases h
  | act _ n op next answer w hn hw =>
    cases op with
    | read k =>
      obtain ⟨rfl, rfl⟩ := Prod.mk.inj (List.mem_singleton.mp h)
      exact (Except.ok.inj (congrArg Prod.fst hw)).symm
    | _ => cases h

/-- Every look is one at the world of its moment. -/
theorem Run.looked (hrun : Run d s acts u) {answer : Except Session.StoreFault Session.Stored}
    (h : (id, answer) ∈ looked acts) : ∃ earlier later t, acts = earlier ++ later ∧
      Run d s earlier t ∧ Run d t later u ∧ answer = (t.world.read id).1 := by
  induction hrun with
  | refl => cases h
  | @step t u acts more hrun hstep ih =>
    rw [looked_append] at h
    rcases List.mem_append.mp h with h | h
    · obtain ⟨earlier, later, v, rfl, hearlier, hlater, hanswer⟩ := ih h
      exact ⟨earlier, later ++ more, v, List.append_assoc .., hearlier, .step hlater hstep, hanswer⟩
    · exact ⟨acts, more, t, rfl, hrun, hstep.run, hstep.looked h⟩

/-- Whenever an id is resolved in the course of some acts, and once more after them, the outcome is
the same. -/
structure Resolved (d : Deployment) (id : String) (acts : List Act) (u : Traffic)
    (outcome : Except Refusal Identity) : Prop where
  meanwhile : ∀ answer, (id, answer) ∈ looked acts → d.identityOf id answer = outcome
  afterwards : (u.world.runServe (d.resolve id)).1 = .ok outcome

theorem resolved_of_forall {outcome : Except Refusal Identity} (hrun : Run d s acts u)
    (h : ∀ earlier later t, acts = earlier ++ later → Run d s earlier t → Run d t later u →
      d.identityOf id (t.world.read id).1 = outcome) : Resolved d id acts u outcome where
  meanwhile answer hanswer := by
    obtain ⟨earlier, later, t, hacts, hearlier, hlater, rfl⟩ := hrun.looked hanswer
    exact h earlier later t hacts hearlier hlater
  afterwards := by
    obtain ⟨notes, hresolve⟩ := d.runServe_resolve u.world id
    rw [hresolve, h acts [] u (List.append_nil acts).symm hrun (.refl u)]

/-- A record that was stored shows from then on. -/
theorem Run.shows_stored (hworks : s.world.StoreWorks)
    (hrun : Run d s (acts ++ ⟨n, time, .create id r lifetime, .ok ()⟩ :: between) t) :
    ∃ expiry v, Session.Store.expiry time lifetime = .ok expiry ∧ v.world.StoreWorks ∧
      v.world.Shows id (some ⟨.fields r.toFields, expiry⟩) ∧ Run d v between t := by
  obtain ⟨u, v, hbefore, hcreate, hbetween⟩ := hrun.split_act
  have hu := hbefore.storeWorks hworks
  obtain ⟨rfl, hperform⟩ := hcreate.perform
  obtain ⟨expiry, hexpiry, hshows⟩ := World.shows_create hu hperform
  exact ⟨expiry, v, hexpiry, hcreate.storeWorks hu, hshows, hbetween⟩

theorem Run.not_stored_again (hidle : s.requests = [])
    (hrun : Run d s (acts ++ ⟨n, time, .create id r lifetime, .ok ()⟩ :: rest) t)
    (hdrawn : (drawn (acts ++ ⟨n, time, .create id r lifetime, .ok ()⟩ :: rest)).Nodup) :
    id ∉ stored rest := by
  have hstored := hrun.stored_nodup hidle hdrawn
  rw [stored_append] at hstored
  exact (List.nodup_cons.mp (List.nodup_append.mp hstored).2.1).1

/-- The end of a session is final, and nothing else ends it. However requests take turns, an id that
was deleted or whose record is spent resolves to nothing ever after, and until then it resolves to
what was stored. -/
theorem Run.session_final (hidle : s.requests = []) (hworks : s.world.StoreWorks)
    (hrun : Run d s (acts ++ ⟨n, time, .create id r lifetime, .ok ()⟩ :: between) t)
    (hrest : Run d t rest u)
    (hdrawn : (drawn (acts ++ ⟨n, time, .create id r lifetime, .ok ()⟩ :: (between ++ rest))).Nodup) :
    ∃ expiry, Session.Store.expiry time lifetime = .ok expiry ∧
      (id ∈ deleted between ∨ expiry ≤ t.world.clock →
        Resolved d id rest u (.error .noSession)) ∧
      (id ∉ deleted (between ++ rest) → u.world.clock < expiry →
        Resolved d id (between ++ rest) u (.ok (Identity.ofRecord id r.asRead))) := by
  have hall := hrun.trans hrest
  rw [List.append_assoc, List.cons_append] at hall
  have honce : id ∉ stored (between ++ rest) := hall.not_stored_again hidle hdrawn
  obtain ⟨expiry, v, hexpiry, hv, hshows, hbetween⟩ := hrun.shows_stored hworks
  refine ⟨expiry, hexpiry, fun hover => ?_, fun hkept hlive => ?_⟩
  · apply resolved_of_forall hrest
    rintro earlier later w rfl hearlier hlater
    rw [← List.append_assoc, stored_append, List.mem_append, not_or] at honce
    have hw := hbetween.trans hearlier
    have hnow := hw.shows hshows hv honce.1
    apply hnow.identityOf_spent (hw.storeWorks hv) d
    intro entry hentry
    obtain ⟨hdeleted, hsome⟩ := Option.ite_none_left_eq_some.mp hentry
    obtain rfl := Option.some.inj hsome
    rw [deleted_append, List.mem_append, not_or] at hdeleted
    rcases hover with hover | hover
    · exact absurd hover hdeleted.1
    · exact Int.le_trans hover hearlier.clock_le
  · apply resolved_of_forall (hbetween.trans hrest)
    intro earlier later w hsplit hearlier hlater
    rw [hsplit, stored_append, List.mem_append, not_or] at honce
    rw [hsplit, deleted_append, List.mem_append, not_or] at hkept
    have hnow := hearlier.shows hshows hv honce.1
    rw [if_neg hkept.1] at hnow
    exact hnow.identityOf_live (hearlier.storeWorks hv) d (Int.lt_of_le_of_lt hlater.clock_le hlive)

theorem exists_run_login :
    ∃ (g : GoodLogin Sample.deployment Sample.credentials Sample.world.clock) (w : World),
      w.clock = Sample.world.clock ∧ Run Sample.deployment ⟨Sample.world, []⟩
        (g.before 0 ++ g.store 0 ::
          [g.created 0, ⟨0, Sample.world.clock, .publish (.login g.account.id), ()⟩])
        ⟨w, [.done (Deployment.ok g.result.toJson)]⟩ := by
  obtain ⟨g, w, -, hserve⟩ := Sample.exists_login
  obtain ⟨acts, htook, hdid, hrun⟩ := Run.of_serve (s := ⟨Sample.world, []⟩) hserve
  obtain ⟨c, hread, g', hresponse, rfl⟩ :=
    Deployment.took_serve_login (by decide +kernel) htook rfl hdid.allAt
  obtain rfl := Except.ok.inj (hread.symm.trans Sample.readCredentials_login)
  refine ⟨g', w, hdid.clock_eq, ?_⟩
  rw [← hresponse]
  simpa [GoodLogin.acts] using hrun

theorem session_final_sample :
    ∃ (g : GoodLogin Sample.deployment Sample.credentials Sample.world.clock) (t u : Traffic),
    Run Sample.deployment ⟨Sample.world, []⟩ (g.before 0 ++ g.store 0 ::
      [g.created 0, ⟨0, Sample.world.clock, .publish (.login g.account.id), ()⟩]) t ∧
    Run Sample.deployment t [] u ∧ u.world.clock = ⟨86400000000000⟩ ∧
    (t.world.runServe (Sample.deployment.resolve g.issued.session)).1 =
      .ok (.ok (Identity.ofRecord g.issued.session g.record.asRead)) ∧
    (u.world.runServe (Sample.deployment.resolve g.issued.session)).1 = .ok (.error .noSession) := by
  obtain ⟨g, w, hclock, hrun⟩ := exists_run_login
  let t : Traffic := ⟨w, [.done (Deployment.ok g.result.toJson)]⟩
  let u : Traffic := ⟨{ w with clock := ⟨86400000000000⟩ }, t.requests⟩
  have hend : g.issued.expiresAt = ⟨86400000000000⟩ := congrArg Instant.mk g.expiresAt_nanos
  have hpass : Step Sample.deployment t [] u := by
    apply Step.pass t ⟨86400000000000⟩ w.wall
    change w.clock ≤ _
    rw [hclock]
    decide
  have hrun' : Run Sample.deployment ⟨Sample.world, []⟩ (g.before 0 ++ g.store 0 ::
      [g.created 0, ⟨0, Sample.world.clock, .publish (.login g.account.id), ()⟩]) u := by
    simpa using hrun.trans hpass.run
  have hdrawn : [Token.sessionId g.number].Nodup := by
    simp
  obtain ⟨expiry, hexpiry, -, hlive⟩ :=
    Run.session_final rfl Sample.storeWorks_world hrun (.refl t) hdrawn
  obtain ⟨expiry', hexpiry', hspent, -⟩ :=
    Run.session_final rfl Sample.storeWorks_world hrun' (.refl u) hdrawn
  obtain rfl : g.issued.expiresAt = expiry := Except.ok.inj (g.store_expiry.symm.trans hexpiry)
  obtain rfl : g.issued.expiresAt = expiry' := Except.ok.inj (g.store_expiry.symm.trans hexpiry')
  rw [hend] at hlive hspent
  refine ⟨g, t, u, hrun, hpass.run, rfl, (hlive ?_ ?_).afterwards, (hspent (.inr ?_)).afterwards⟩
  · exact List.not_mem_nil
  · change w.clock < _
    rw [hclock]
    decide
  · exact Int.le_refl _

end Traffic

end SessionGate
