import SessionGate.Proofs.Service.Announce
import SessionGate.Proofs.Service.Stack
import SessionGate.Proofs.Traffic.Ids

/-!
Requests under way while calls of the store and of the directory fail. Which ones fail, and what the
clocks show, may be different at every turn. Main statement: `Traffic.FaultyRun.fails_closed`, what
becomes of a request at which a call has failed.
-/

namespace SessionGate

namespace World

variable {w w' : World} {id k : String}

theorem perform_create_cases {r : Session.Record} {lifetime : Nat}
    {answer : Except Session.StoreFault Unit}
    (h : w.perform (.create k r lifetime) = (.ok answer, w')) :
    (answer = .ok () ∧ ∃ expiry, Session.Store.expiry w.clock lifetime = .ok expiry ∧
      w' = { w with store := w.store.insert k ⟨.fields r.toFields, expiry⟩ }) ∨
      ((∃ fault, answer = .error fault) ∧ w' = w) := by
  simp only [perform, create, Session.Store.create, Session.Store.write] at h
  cases hfault : w.faults.create with
  | some fault =>
    rw [hfault] at h
    cases h
    exact .inr ⟨⟨fault, rfl⟩, rfl⟩
  | none =>
    rw [hfault] at h
    cases hexpiry : Session.Store.expiry w.clock lifetime with
    | ok expiry =>
      rw [hexpiry] at h
      cases h
      exact .inl ⟨rfl, expiry, rfl, rfl⟩
    | error fault =>
      rw [hexpiry] at h
      cases fault <;> cases h
      exact .inr ⟨⟨_, rfl⟩, rfl⟩

theorem perform_delete_cases {answer : Except Session.StoreFault Unit}
    (h : w.perform (.delete k) = (.ok answer, w')) :
    (answer = .ok () ∧ w' = { w with store := w.store.erase k }) ∨
      ((∃ fault, answer = .error fault) ∧ w' = w) := by
  simp only [perform, delete] at h
  cases hfault : w.faults.delete with
  | some fault =>
    rw [hfault] at h
    cases h
    exact .inr ⟨⟨fault, rfl⟩, rfl⟩
  | none =>
    rw [hfault] at h
    cases h
    exact .inl ⟨rfl, rfl⟩

/-- What an act has made of the store. -/
inductive StoreAfter (w : World) (a : Act) : Session.Store → Prop
  | stored (id : String) (r : Session.Record) (expiry : Instant) (hstored : a.stored? = some id)
      (hdeleted : a.deleted? = none) : StoreAfter w a (w.store.insert id ⟨.fields r.toFields, expiry⟩)
  | deleted (id : String) (hdeleted : a.deleted? = some id) : StoreAfter w a (w.store.erase id)
  | looked (id : String) (hdeleted : a.deleted? = none) :
      StoreAfter w a (w.store.read w.clock id).2
  | same (hdeleted : a.deleted? = none) : StoreAfter w a w.store

theorem storeAfter_performed {a : Act} (h : w.perform a.op = (.ok a.answer, w')) :
    StoreAfter w a w'.store := by
  obtain ⟨n, time, op, answer⟩ := a
  dsimp only at h
  cases op with
  | create id r lifetime =>
    rcases perform_create_cases h with ⟨rfl, expiry, -, rfl⟩ | ⟨⟨fault, rfl⟩, rfl⟩
    · exact .stored id r expiry rfl rfl
    · exact .same rfl
  | delete id =>
    rcases perform_delete_cases h with ⟨rfl, rfl⟩ | ⟨⟨fault, rfl⟩, rfl⟩
    · exact .deleted id rfl
    · exact .same rfl
  | read id =>
    obtain rfl : (w.read id).2 = w' := congrArg Prod.snd h
    unfold World.read
    cases w.faults.read with
    | some fault => exact .same rfl
    | none => exact .looked id rfl
  | _ =>
    obtain rfl : (w.perform _).2 = w' := congrArg Prod.snd h
    exact .same rfl

theorem live?_performed {a : Act} (h : w.perform a.op = (.ok a.answer, w')) {later : Instant}
    (hlater : w.clock ≤ later) (hstored : a.stored? ≠ some id) (hdeleted : a.deleted? ≠ some id) :
    w'.store.live? later id = w.store.live? later id := by
  have hstore := storeAfter_performed h
  generalize w'.store = store at hstore ⊢
  cases hstore with
  | stored k r expiry hk =>
    have hne : id ≠ k := fun hid => hstored (hid ▸ hk)
    rw [Session.Store.live?_insert, if_neg hne]
  | deleted k hk =>
    have hne : id ≠ k := fun hid => hdeleted (hid ▸ hk)
    rw [Session.Store.live?_erase, if_neg hne]
  | looked k => exact Session.Store.live?_read hlater w.store k id
  | same => rfl

end World

theorem Deployment.resolve_congr {d : Deployment} {id : String} {w w' : World} (hfaults : w.faults = w'.faults)
    (hlive : w.store.live? w.clock id = w'.store.live? w'.clock id) :
    (w.runServe (d.resolve id)).1 = (w'.runServe (d.resolve id)).1 := by
  obtain ⟨notes, h⟩ := d.runServe_resolve w id
  obtain ⟨notes', h'⟩ := d.runServe_resolve w' id
  have hread : (w.read id).1 = (w'.read id).1 := by
    unfold World.read
    rw [hfaults]
    cases w'.faults.read with
    | some fault => rfl
    | none =>
      simp only [Session.Store.read, hlive]
      cases w'.store.live? w'.clock id <;> rfl
  rw [h, h', hread]

namespace Traffic

/-- A run in which calls fail as anybody pleases. Between two acts the clocks may be set, and the calls
be chosen that fail from then on; the requests are listed in the order that they arrive in. -/
inductive FaultyRun (d : Deployment) : Traffic → List Http.Request → List Act → Traffic → Prop
  | refl (s : Traffic) : FaultyRun d s [] [] s
  | arrive {s t : Traffic} {reqs : List Http.Request} {acts : List Act}
      (h : FaultyRun d s reqs acts t) (req : Http.Request) :
      FaultyRun d s (reqs ++ [req]) acts { t with requests := t.requests ++ [d.serve req] }
  | turn {s t : Traffic} {reqs : List Http.Request} {acts : List Act}
      (h : FaultyRun d s reqs acts t) (clock wall : Instant) (faults : Faults) :
      FaultyRun d s reqs acts { t with world := { t.world with clock, wall, faults } }
  | act {s t u : Traffic} {reqs : List Http.Request} {acts : List Act} {a : Act}
      (h : FaultyRun d s reqs acts t) (hstep : Step d t [a] u) : FaultyRun d s reqs (acts ++ [a]) u

/-- What one request did. -/
def ofRequest (n : Nat) (acts : List Act) : List Act := acts.filter (·.request = n)

def ofOthers (n : Nat) (acts : List Act) : List Act := acts.filter (·.request ≠ n)

variable {d : Deployment} {s t u : Traffic} {reqs : List Http.Request} {acts more : List Act}
  {a : Act} {n i : Nat} {req : Http.Request} {id : String}

theorem ofRequest_append (n : Nat) (acts more : List Act) :
    ofRequest n (acts ++ more) = ofRequest n acts ++ ofRequest n more := List.filter_append ..

theorem mem_ofRequest : a ∈ ofRequest n acts ↔ a ∈ acts ∧ a.request = n := by
  simp [ofRequest]

theorem mem_ofOthers : a ∈ ofOthers n acts ↔ a ∈ acts ∧ a.request ≠ n := by
  simp [ofOthers]

def Untouched (id : String) (acts : List Act) : Prop :=
  ∀ a ∈ acts, a.stored? ≠ some id ∧ a.deleted? ≠ some id

theorem untouched_of_eq_nil (hstored : stored acts = []) (hdeleted : deleted acts = [])
    (id : String) : Untouched id acts := by
  intro a ha
  rw [List.filterMap_eq_nil_iff.mp hstored a ha, List.filterMap_eq_nil_iff.mp hdeleted a ha]
  exact ⟨nofun, nofun⟩

theorem Untouched.mono (h : Untouched id acts) (hsub : more ⊆ acts) : Untouched id more :=
  fun a ha => h a (hsub ha)

theorem Untouched.of_both (h : Untouched id (ofRequest n acts)) (h' : Untouched id (ofOthers n acts)) :
    Untouched id acts := by
  intro a ha
  by_cases hn : a.request = n
  · exact h a (mem_ofRequest.mpr ⟨ha, hn⟩)
  · exact h' a (mem_ofOthers.mpr ⟨ha, hn⟩)

theorem Step.performed (h : Step d s [a] t) :
    a.time = s.world.clock ∧ s.world.perform a.op = (.ok a.answer, t.world) := by
  cases h with
  | act _ n op next answer w hn hw => exact ⟨rfl, hw⟩

theorem Step.request_lt (h : Step d s [a] t) :
    a.request < s.requests.length ∧ t.requests.length = s.requests.length := by
  cases h with
  | act _ n op next answer w hn hw =>
    exact ⟨(List.getElem?_eq_some_iff.mp hn).1, List.length_set ..⟩

namespace FaultyRun

theorem length_requests (h : FaultyRun d s reqs acts u) :
    u.requests.length = s.requests.length + reqs.length := by
  induction h with
  | refl => rfl
  | arrive _ req ih => simp only [List.length_append, List.length_singleton, ih, Nat.add_assoc]
  | turn _ clock wall faults ih => exact ih
  | act _ hstep ih => exact hstep.request_lt.2.trans ih

theorem request_lt (h : FaultyRun d s reqs acts u) : ∀ a ∈ acts, a.request < u.requests.length := by
  induction h with
  | refl => exact fun a ha => absurd ha List.not_mem_nil
  | arrive _ req ih =>
    intro a ha
    rw [List.length_append]
    exact Nat.lt_add_right _ (ih a ha)
  | turn _ clock wall faults ih => exact ih
  | act _ hstep ih =>
    intro a ha
    rw [hstep.request_lt.2]
    rcases List.mem_append.mp ha with ha | ha
    · exact ih a ha
    · rw [List.mem_singleton.mp ha]
      exact hstep.request_lt.1

theorem took (h : FaultyRun d s reqs acts u) (hreq : reqs[i]? = some req) :
    ∃ q, u.requests[s.requests.length + i]? = some q ∧
      (d.serve req).Took (s.requests.length + i) (ofRequest (s.requests.length + i) acts) q := by
  induction h with
  | refl => cases hreq
  | @arrive t reqs acts h last ih =>
    have hlen := h.length_requests
    rcases Nat.lt_trichotomy i reqs.length with hlt | rfl | hgt
    · rw [List.getElem?_append_left hlt] at hreq
      obtain ⟨q, hq, htook⟩ := ih hreq
      exact ⟨q, (List.getElem?_append_left (by omega)).trans hq, htook⟩
    · obtain rfl := Option.some.inj (List.getElem?_concat_length.symm.trans hreq)
      have hnone : ofRequest (s.requests.length + reqs.length) acts = [] := by
        refine List.filter_eq_nil_iff.mpr fun a ha => ?_
        have hlt := h.request_lt a ha
        exact fun heq => absurd (of_decide_eq_true heq) (by omega)
      rw [← hlen] at hnone ⊢
      exact ⟨d.serve last, List.getElem?_concat_length, hnone ▸ .nil _⟩
    · rw [List.getElem?_eq_none (by rw [List.length_append, List.length_singleton]; omega)] at hreq
      cases hreq
  | turn _ clock wall faults ih => exact ih hreq
  | act _ hstep ih =>
    obtain ⟨q, hq, htook⟩ := ih hreq
    obtain ⟨r, hr, hlast⟩ := hstep.took hq
    refine ⟨r, hr, ?_⟩
    rw [ofRequest_append]
    exact htook.append hlast

theorem live?_eq (h : FaultyRun d s reqs acts u) {later : Instant}
    (hlater : ∀ a ∈ acts, a.time ≤ later) (hid : Untouched id acts) :
    u.world.store.live? later id = s.world.store.live? later id := by
  induction h with
  | refl => rfl
  | arrive _ req ih => exact ih hlater hid
  | turn _ clock wall faults ih => exact ih hlater hid
  | @act t u reqs acts a _ hstep ih =>
    have ha : a ∈ acts ++ [a] := List.mem_append_right _ List.mem_cons_self
    obtain ⟨htime, hperform⟩ := hstep.performed
    have hclock : t.world.clock ≤ later := htime ▸ hlater a ha
    calc u.world.store.live? later id = t.world.store.live? later id :=
          World.live?_performed hperform hclock (hid a ha).1 (hid a ha).2
      _ = _ := ih (fun b hb => hlater b (List.mem_append_left _ hb))
          (hid.mono (List.subset_append_left ..))

theorem split_act (h : FaultyRun d s reqs (acts ++ a :: more) u) :
    ∃ early late t v, FaultyRun d s early acts t ∧ Step d t [a] v ∧ FaultyRun d v late more u := by
  generalize hall : acts ++ a :: more = all at h
  induction h generalizing more with
  | refl => cases List.append_ne_nil_of_right_ne_nil acts (List.cons_ne_nil a more) hall
  | arrive _ req ih =>
    obtain ⟨early, late, t, v, hbefore, hstep, hafter⟩ := ih hall
    exact ⟨early, late ++ [req], t, v, hbefore, hstep, hafter.arrive req⟩
  | turn _ clock wall faults ih =>
    obtain ⟨early, late, t, v, hbefore, hstep, hafter⟩ := ih hall
    exact ⟨early, late, t, v, hbefore, hstep, hafter.turn clock wall faults⟩
  | @act t u reqs all last hrun hstep ih =>
    rcases List.eq_nil_or_concat more with rfl | ⟨between, b, rfl⟩
    · obtain ⟨rfl, hlast⟩ := List.append_inj' hall rfl
      cases hlast
      exact ⟨reqs, [], t, u, hrun, hstep, .refl u⟩
    · rw [List.concat_eq_append, ← List.cons_append, ← List.append_assoc] at hall
      obtain ⟨rfl, hlast⟩ := List.append_inj' hall rfl
      cases hlast
      obtain ⟨early, late, x, v, hbefore, hfirst, hafter⟩ := ih rfl
      rw [List.concat_eq_append]
      exact ⟨early, late, x, v, hbefore, hfirst, hafter.act hstep⟩

end FaultyRun

/-- What becomes of a request at which a call failed: for all that it did, nothing was stored, deleted
or published, and its answer is settled. -/
structure FailsClosed (d : Deployment) (s u : Traffic) (acts : List Act) (n : Nat)
    (req : Http.Request) (missed : Bool) : Prop where
  quiet : Quiet (ofRequest n acts)
  live : ∀ later, (∀ a ∈ acts, a.time ≤ later) → ∀ id, Untouched id (ofOthers n acts) →
    u.world.store.live? later id = s.world.store.live? later id
  usable : ∀ later faults, (∀ a ∈ acts, a.time ≤ later) → ∀ id, Untouched id (ofOthers n acts) →
    ({ u.world with clock := later, faults }.runServe (d.resolve id)).1 =
      ({ s.world with clock := later, faults }.runServe (d.resolve id)).1
  /-- There is no more to do than to take notes. -/
  settled : ∃ notes, u.requests[n]? = some (.noting notes (Deployment.failure req missed))
  answer : ∀ response, u.requests[n]? = some (.done response) →
    response = Deployment.failure req missed
  noToken : ∀ l : Login, Deployment.failure req missed ≠ Deployment.ok l.toJson

/-- A token that was given out: the session that it names was stored, and is there until its end unless
another request sees to that. -/
structure Backed (u : Traffic) (acts : List Act) (n : Nat) (l : Login) (id : String)
    (expiry : Instant) : Prop where
  named : Token.sessionOf? l.token = some id
  created : ∃ time lifetime, ⟨n, time, .create id (.ofProfile l.profile) lifetime, .ok ()⟩ ∈ acts ∧
    Session.Store.expiry time lifetime = .ok expiry
  live : ∀ later, (∀ a ∈ acts, a.time ≤ later) → later < expiry → Untouched id (ofOthers n acts) →
    u.world.store.live? later id =
      some ⟨.fields (Session.Record.ofProfile l.profile).toFields, expiry⟩

namespace FaultyRun

theorem failsClosed (h : FaultyRun d s reqs acts u) (hreq : reqs[i]? = some req) (ha : a ∈ acts)
    (hn : a.request = s.requests.length + i) {missed : Bool} (hfails : a.Fails missed) :
    FailsClosed d s u acts (s.requests.length + i) req missed := by
  obtain ⟨q, hq, htook⟩ := h.took hreq
  obtain ⟨hquiet, notes, rfl⟩ := Deployment.took_failed htook (mem_ofRequest.mpr ⟨ha, hn⟩) hfails
  have hlive : ∀ later, (∀ a ∈ acts, a.time ≤ later) → ∀ id,
      Untouched id (ofOthers (s.requests.length + i) acts) →
        u.world.store.live? later id = s.world.store.live? later id := by
    intro later hlater id hid
    exact h.live?_eq hlater ((untouched_of_eq_nil hquiet.stored hquiet.deleted id).of_both hid)
  refine ⟨hquiet, hlive, ?_, ⟨notes, hq⟩, ?_, fun l => Deployment.failure_ne_ok req missed l.toJson⟩
  · intro later faults hlater id hid
    exact Deployment.resolve_congr rfl (hlive later hlater id hid)
  · intro response hresponse
    have hsettled : (Program.done response).Settled (Deployment.failure req missed) :=
      ⟨notes, Option.some.inj (hresponse.symm.trans hq)⟩
    exact Program.eq_of_settled_done hsettled

theorem exists_split_of_ofRequest {before after : List Act}
    (h : ofRequest n acts = before ++ a :: after) :
    ∃ early late, acts = early ++ a :: late ∧ ofRequest n late = after := by
  obtain ⟨first, rest, rfl, -, hrest⟩ := List.filter_eq_append_iff.mp h
  obtain ⟨skipped, late, rfl, -, -, hlate⟩ := List.filter_eq_cons_iff.mp hrest
  exact ⟨first ++ skipped, late, by simp, hlate⟩

theorem backed (h : FaultyRun d s reqs acts u) {l : Login}
    (hopens : Deployment.Opens l id n (ofRequest n acts)) : ∃ expiry, Backed u acts n l id expiry := by
  obtain ⟨before, after, time, lifetime, hown, hstored, hdeleted⟩ := hopens.stored
  obtain ⟨early, late, rfl, hlate⟩ := exists_split_of_ofRequest hown
  obtain ⟨_, _, t, v, hbefore, hstep, hafter⟩ := h.split_act
  obtain ⟨rfl, hperform⟩ := hstep.performed
  rcases World.perform_create_cases hperform with ⟨-, expiry, hexpiry, hv⟩ | ⟨⟨fault, hfault⟩, -⟩
  · refine ⟨expiry, hopens.named, ⟨_, lifetime, by simp, hexpiry⟩, ?_⟩
    intro later hlater hlt hothers
    have hsub := (List.sublist_cons_self (⟨n, t.world.clock,
      .create id (.ofProfile l.profile) lifetime, .ok ()⟩ : Act) late).trans
        (List.sublist_append_right early _)
    -- After the record was stored, neither this request nor another touches the id.
    have hid : Untouched id late := by
      apply Untouched.of_both (n := n)
      · rw [hlate]
        exact untouched_of_eq_nil hstored hdeleted id
      · exact hothers.mono (hsub.filter _).subset
    rw [hafter.live?_eq (fun a ha => hlater a (hsub.subset ha)) hid, hv,
      Session.Store.live?_insert, if_pos rfl, if_pos hlt]
  · cases hfault

/-- Failures are closed. A request at which a call of the store or of the directory failed changes
nothing and tells nobody, and its answer depends on nothing but whether a session was looked up that
is not there; where the look failed, no handler behind the gates has a part in it. And a token is given
out only for a session that was stored. -/
theorem fails_closed (h : FaultyRun d s reqs acts u) (hreq : reqs[i]? = some req) :
    (∀ a ∈ acts, a.request = s.requests.length + i → ∀ missed, a.Fails missed →
      FailsClosed d s u acts (s.requests.length + i) req missed ∧
      (a.op.IsRead → ∀ route, Route.ofPath? (Http.pathOf req.target) = some route →
        ∀ other : Handler, ∃ q r, (Gate.stack d req.headers route.gates other none).Took
          (s.requests.length + i) (ofRequest (s.requests.length + i) acts) q ∧
          a.op.refusal? a.answer = some r ∧ q.Settled r.response)) ∧
    (Route.ofPath? (Http.pathOf req.target) = some .login → ∀ response,
      u.requests[s.requests.length + i]? = some (.done response) → response.status = 200 →
        ∃ l id expiry, response = Deployment.ok l.toJson ∧
          Backed u acts (s.requests.length + i) l id expiry) := by
  obtain ⟨q, hq, htook⟩ := h.took hreq
  refine ⟨fun a ha hn missed hfails => ⟨h.failsClosed hreq ha hn hfails, ?_⟩, ?_⟩
  · intro hread route hroute other
    obtain ⟨r, hr, -⟩ := hfails.refusal?
    obtain ⟨q', hstack, hsettled⟩ :=
      Deployment.took_unread hroute htook (mem_ofRequest.mpr ⟨ha, hn⟩) hread hr other
    exact ⟨q', r, hstack, hr, hsettled⟩
  · intro hroute response hresponse hstatus
    obtain rfl := Option.some.inj (hq.symm.trans hresponse)
    have hannounces := Deployment.announces_of_took htook
    generalize published _ = events at hannounces
    cases hannounces with
    | login l id _ _ hok hopens =>
      obtain ⟨expiry, hbacked⟩ := h.backed hopens
      exact ⟨l, id, expiry, hok, hbacked⟩
    | logout who hwho => cases hroute.symm.trans hwho.route
    | revoke part id who hrevoke => cases hroute.symm.trans hrevoke
    | nothing hlogin => exact absurd hstatus (hlogin hroute)

theorem did (h : FaultyRun d s reqs acts t) {p q : Program Effect Http.Response} {w : World}
    (hn : t.requests[n]? = some p) (htook : p.Took n more q) (hdid : t.world.Did n more w) :
    FaultyRun d s reqs (acts ++ more) ⟨w, t.requests.set n q⟩ := by
  induction htook generalizing t acts with
  | nil p =>
    cases hdid
    obtain ⟨hlt, rfl⟩ := List.getElem?_eq_some_iff.mp hn
    rw [List.set_getElem_self hlt, List.append_nil]
    exact h
  | @cons β op next time answer more q htook ih =>
    cases hdid with
    | cons hop hdid =>
      have hlt := (List.getElem?_eq_some_iff.mp hn).1
      have hfirst := h.act (.act t n op next answer _ hn hop)
      have hrest := ih hfirst (List.getElem?_set_self hlt) hdid
      rw [List.set_set, List.append_assoc] at hrest
      exact hrest

end FaultyRun

end Traffic

namespace Sample

def leaving : Http.Request where
  method := "POST"
  target := "/api/auth/logout"
  headers := asserting
  body := []

def peeking : Http.Request where
  method := "HEAD"
  target := "/api/profile"
  headers := asserting
  body := []

end Sample

namespace Traffic

/-- A logout whose session could not be deleted leaves it as good as it was. -/
theorem FaultyRun.fails_closed_sample : ∃ acts u,
    FaultyRun Sample.behindGateway ⟨Sample.signedIn, []⟩ [Sample.leaving] acts u ∧
    u.requests = [.done (Deployment.failure Sample.leaving false)] ∧
    ({ u.world with clock := Sample.signedIn.clock, faults := {} }.runServe
      (Sample.behindGateway.resolve "first")).1 = .ok (.ok Sample.member) := by
  let time := Sample.signedIn.clock
  let failing : Act := ⟨0, time, .delete "first", .error .unavailable⟩
  let acts : List Act :=
    [⟨0, time, .read "first", .ok (.record (Session.Record.ofProfile Sample.account.profile).asRead)⟩,
      failing, ⟨0, time, .note (.deleteFailed "first" .unavailable), ()⟩,
      ⟨0, time, .note (.failed (.store .unavailable)), ()⟩]
  have htook : (Sample.behindGateway.serve Sample.leaving).Took 0 acts
      (.done (Deployment.failure Sample.leaving false)) := by
    with_unfolding_all exact .cons (.cons (.cons (.cons (.nil _))))
  have hdid : ∃ w, World.Did 0 { Sample.signedIn with faults := { delete := some .unavailable } }
      acts w := by
    with_unfolding_all exact ⟨_, .cons rfl (.cons rfl (.cons rfl (.cons rfl (.nil _))))⟩
  obtain ⟨w, hdid⟩ := hdid
  have hrun : FaultyRun Sample.behindGateway ⟨Sample.signedIn, []⟩ [Sample.leaving] acts
      ⟨w, [.done (Deployment.failure Sample.leaving false)]⟩ := by
    have harrived := ((FaultyRun.refl ⟨Sample.signedIn, []⟩).arrive (d := Sample.behindGateway)
      Sample.leaving).turn time ⟨0⟩ { delete := some .unavailable }
    exact harrived.did (n := 0) rfl htook hdid
  have hfailing : failing ∈ acts := List.mem_cons_of_mem _ List.mem_cons_self
  have hclosed := ((hrun.fails_closed (i := 0) rfl).1 failing hfailing rfl false (.delete ..)).1
  have htime : ∀ a ∈ acts, a.time ≤ time := fun a ha => Int.le_of_eq
    (congrArg Instant.nanos (hdid.allAt a ha).1)
  have hothers : Untouched "first" (ofOthers 0 acts) := fun a ha => absurd ha List.not_mem_nil
  refine ⟨acts, _, hrun, rfl, (hclosed.usable time {} htime "first" hothers).trans ?_⟩
  with_unfolding_all rfl

/-- An answer to a HEAD request says as much as its status. -/
theorem FaultyRun.head_body_ne : ∃ acts u response,
    FaultyRun Sample.behindGateway ⟨Sample.signedIn, []⟩ [Sample.peeking] acts u ∧
    (∃ a ∈ acts, a.request = 0 ∧ a.Fails false) ∧ u.requests[0]? = some (.done response) ∧
    response.status = 500 ∧ response.body ≠ (failureEnvelope "Internal Server Error").write := by
  let time := Sample.signedIn.clock
  let failing : Act := ⟨0, time, .read "first", .error .unavailable⟩
  let acts : List Act :=
    [failing, ⟨0, time, .note (.readFailed "first" .unavailable), ()⟩,
      ⟨0, time, .note (.failed (.store .unavailable)), ()⟩]
  have htook : (Sample.behindGateway.serve Sample.peeking).Took 0 acts
      (.done ⟨500, some "application/json", none, ""⟩) := by
    with_unfolding_all exact .cons (.cons (.cons (.nil _)))
  have hdid : ∃ w, World.Did 0 { Sample.signedIn with faults := { read := some .unavailable } }
      acts w := by
    with_unfolding_all exact ⟨_, .cons rfl (.cons rfl (.cons rfl (.nil _)))⟩
  obtain ⟨w, hdid⟩ := hdid
  have harrived := ((FaultyRun.refl ⟨Sample.signedIn, []⟩).arrive (d := Sample.behindGateway)
    Sample.peeking).turn time ⟨0⟩ { read := some .unavailable }
  exact ⟨acts, _, _, harrived.did (n := 0) rfl htook hdid,
    ⟨failing, List.mem_cons_self, rfl, .read ..⟩, rfl, rfl, by decide +kernel⟩

end Traffic

end SessionGate
