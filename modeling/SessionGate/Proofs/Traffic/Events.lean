import Mathlib.Data.List.Basic
import SessionGate.Proofs.Traffic.Faulty

/-!
What is published in a run, against what its requests did. Where requests are served one after another,
the events come in their order, and each is called for by the request that it comes from. Main statement:
`Traffic.FaultyRun.mirrors`.
-/

namespace SessionGate

/-- A channel that keeps its last events for those who are behind, as one subscriber finds it. -/
structure Channel (α : Type) where
  sent : List α := []
  /-- The place of the event that is received next. -/
  next : Nat := 0
  received : List α := []

namespace Channel

variable {α : Type} {capacity : Nat} {c c' : Channel α}

def behind (c : Channel α) : Nat := c.sent.length - c.next

inductive Step (capacity : Nat) : Channel α → Channel α → Prop
  | publish (c : Channel α) (e : α) : Step capacity c { c with sent := c.sent ++ [e] }
  | receive (c : Channel α) (e : α) (hkept : c.behind ≤ capacity)
      (he : c.sent[c.next]? = some e) :
      Step capacity c { c with next := c.next + 1, received := c.received ++ [e] }
  /-- What is not kept any more is skipped. -/
  | lag (c : Channel α) (h : capacity < c.behind) :
      Step capacity c { c with next := c.sent.length - capacity }

/-- A subscriber that is never further behind than events are kept. -/
inductive KeepsUp (capacity : Nat) : Channel α → Prop
  | subscribe : KeepsUp capacity {}
  | step {c c' : Channel α} (h : KeepsUp capacity c) (hstep : Step capacity c c')
      (hbehind : c'.behind ≤ capacity) : KeepsUp capacity c'

theorem KeepsUp.behind_le (h : KeepsUp capacity c) : c.behind ≤ capacity := by
  cases h with
  | subscribe => exact Nat.zero_le _
  | step _ _ hbehind => exact hbehind

/-- Who keeps up has received the events that were sent, in order and without a gap. -/
theorem KeepsUp.received_eq (h : KeepsUp capacity c) :
    c.next ≤ c.sent.length ∧ c.received = c.sent.take c.next := by
  induction h with
  | subscribe => exact ⟨Nat.le_refl 0, rfl⟩
  | step h hstep _ ih =>
    obtain ⟨hle, hreceived⟩ := ih
    cases hstep with
    | publish e =>
      constructor
      · simp only [List.length_append]
        omega
      · rw [hreceived, List.take_append_of_le_length hle]
    | receive e _ he =>
      have hlt := (List.getElem?_eq_some_iff.mp he).1
      refine ⟨hlt, ?_⟩
      simp [hreceived, List.take_add_one, he]
    | lag hlag => exact absurd h.behind_le (Nat.not_le.mpr hlag)

end Channel

/-- How many events are kept for a subscriber that is behind. -/
def Event.kept : Nat := 256

namespace World

variable {w w' : World} {id : String}

theorem events_performed {a : Act} (h : w.perform a.op = (.ok a.answer, w')) : ∃ since,
    w'.events = w.events ++ since ∧ since.map Prod.snd = a.published?.toList := by
  obtain ⟨n, time, op, answer⟩ := a
  dsimp only at h
  cases op with
  | create k r lifetime =>
    rcases perform_create_cases h with ⟨-, expiry, -, rfl⟩ | ⟨-, rfl⟩
    · exact ⟨[], (List.append_nil _).symm, rfl⟩
    · exact ⟨[], (List.append_nil _).symm, rfl⟩
  | delete k =>
    rcases perform_delete_cases h with ⟨-, rfl⟩ | ⟨-, rfl⟩
    · exact ⟨[], (List.append_nil _).symm, rfl⟩
    · exact ⟨[], (List.append_nil _).symm, rfl⟩
  | read k =>
    obtain rfl : (w.perform _).2 = w' := congrArg Prod.snd h
    refine ⟨[], ?_, rfl⟩
    simp only [perform, World.read, List.append_nil]
    cases w.faults.read <;> rfl
  | publish e =>
    obtain rfl : (w.perform _).2 = w' := congrArg Prod.snd h
    exact ⟨[(w.wall, e)], rfl, rfl⟩
  | _ =>
    obtain rfl : (w.perform _).2 = w' := congrArg Prod.snd h
    exact ⟨[], (List.append_nil _).symm, rfl⟩

theorem held?_performed {a : Act} (h : w.perform a.op = (.ok a.answer, w'))
    (hnone : w.store.held? id = none) (hstored : a.stored? ≠ some id) :
    w'.store.held? id = none := by
  have hstore := storeAfter_performed h
  generalize w'.store = store at hstore ⊢
  cases hstore with
  | stored k r expiry hk =>
    have hne : id ≠ k := fun hid => hstored (hid ▸ hk)
    rw [Session.Store.held?_insert, if_neg hne, hnone]
  | deleted k => simp [Session.Store.held?_erase, hnone]
  | looked k =>
    unfold Session.Store.read
    split
    · exact hnone
    · simp [Session.Store.held?_erase, hnone]
  | same => exact hnone

theorem held?_of_deleted {a : Act} (h : w.perform a.op = (.ok a.answer, w'))
    (hdeleted : a.deleted? = some id) : w'.store.held? id = none := by
  have hstore := storeAfter_performed h
  generalize w'.store = store at hstore ⊢
  cases hstore with
  | deleted k hk =>
    obtain rfl := Option.some.inj (hk.symm.trans hdeleted)
    rw [Session.Store.held?_erase, if_pos rfl]
  | stored k r expiry _ hk | looked k hk | same hk => cases hk.symm.trans hdeleted

theorem read_of_held?_eq_none (h : w.store.held? id = none) : ∃ fault, (w.read id).1 = .error fault := by
  unfold World.read
  cases w.faults.read with
  | some fault => exact ⟨fault, rfl⟩
  | none => simp [Session.Store.read, Session.Store.live?, h]

end World

namespace Deployment

open Program

variable {d : Deployment} {n : Nat} {acts : List Act} {headers : Http.Headers} {who : Identity}

theorem Identified.exists_read (h : d.Identified headers n acts who) : ∃ time answer,
    ⟨n, time, .read who.session, answer⟩ ∈ acts ∧ d.identityOf who.session answer = .ok who := by
  obtain ⟨first, rest, rfl, hauth⟩ := h
  obtain ⟨id, claimed, looked, rfl, -, hresolve⟩ := took_serve_bind hauth
  obtain ⟨notes, heq⟩ := d.resolve_eq_ask id
  rw [heq] at hresolve
  obtain ⟨time, answer, last, rfl, hlast⟩ := took_ask hresolve
  have hwho : d.identityOf id answer = .ok who := by
    have hsettled : (Program.noting (notes answer) (d.identityOf id answer)).Settled
        (d.identityOf id answer) := ⟨notes answer, rfl⟩
    exact (eq_of_settled_done (hsettled.took hlast)).symm
  obtain rfl := session_of_identityOf hwho
  exact ⟨time, answer, by simp, hwho⟩

theorem published_of_ne_done {req : Http.Request} {q : Program Effect Http.Response}
    (htook : (d.serve req).Took n acts q) (hq : ∀ response, q ≠ .done response) :
    published acts = [] := by
  cases hroute : Route.ofPath? (Http.pathOf req.target) with
  | none =>
    rw [serve, hroute] at htook
    obtain ⟨rfl, -⟩ := eq_of_took_done htook
    rfl
  | some route =>
    refine List.filterMap_eq_nil_iff.mpr fun a ha => ?_
    by_contra hsome
    have hpublish : a.op.IsPublish := by
      obtain ⟨m, time, op, answer⟩ := a
      cases op with
      | publish e => trivial
      | _ => exact absurd rfl hsome
    obtain ⟨response, rfl⟩ := (orderly_serve hroute).took_publish htook ha hpublish
    exact hq response rfl

end Deployment

namespace Traffic

variable {d : Deployment} {s t u : Traffic} {reqs : List Http.Request} {acts before after : List Act}
  {a b : Act} {n i j k : Nat} {req : Http.Request} {id : String} {holder : Nat → Option String}

/-- One request after another. -/
def InTurn (acts : List Act) : Prop := acts.Pairwise (·.request ≤ ·.request)

theorem InTurn.eq_append (h : InTurn acts) (k : Nat) :
    acts = acts.filter (·.request < k) ++ acts.filter (k ≤ ·.request) := by
  induction acts with
  | nil => rfl
  | cons a acts ih =>
    obtain ⟨hle, hacts⟩ := List.pairwise_cons.mp h
    by_cases hk : a.request < k
    · simpa [hk, Nat.not_le.mpr hk] using ih hacts
    · -- Whatever comes after is of this request or of a later one.
      have hlate : ∀ b ∈ a :: acts, k ≤ b.request := by
        intro b hb
        rcases List.mem_cons.mp hb with rfl | hb
        · omega
        · have := hle b hb
          omega
      have hnone : (a :: acts).filter (·.request < k) = [] := by
        simpa using hlate
      have hall : (a :: acts).filter (k ≤ ·.request) = a :: acts := by
        simpa using hlate
      rw [hnone, hall, List.nil_append]

/-- What every request has published, in the order of the requests. -/
def publishedInTurn (k : Nat) (acts : List Act) : List Event :=
  (List.range k).flatMap fun n => published (ofRequest n acts)

theorem ofRequest_filter_lt (hn : n < k) (acts : List Act) :
    ofRequest n (acts.filter (·.request < k)) = ofRequest n acts := by
  rw [ofRequest, ofRequest, List.filter_filter]
  refine List.filter_congr fun a _ => ?_
  by_cases ha : a.request = n <;> simp [ha, hn]

theorem InTurn.published_eq (h : InTurn acts) (hlt : ∀ a ∈ acts, a.request < k) :
    published acts = publishedInTurn k acts := by
  -- The acts of the last request stand at the end, and the rest are those of fewer requests.
  induction k generalizing acts with
  | zero =>
    cases acts with
    | nil => rfl
    | cons a acts => exact absurd (hlt a List.mem_cons_self) (Nat.not_lt_zero _)
  | succ k ih =>
    have hlast : acts.filter (k ≤ ·.request) = ofRequest k acts := by
      refine List.filter_congr fun a ha => ?_
      have := hlt a ha
      simp only [decide_eq_decide]
      omega
    calc published acts
        = published (acts.filter (·.request < k)) ++ published (ofRequest k acts) := by
          rw [← published_append, ← hlast, ← h.eq_append]
      _ = publishedInTurn k (acts.filter (·.request < k)) ++ published (ofRequest k acts) := by
          rw [← ih (h.filter _) (by simp)]
      _ = publishedInTurn k acts ++ published (ofRequest k acts) := by
          congr 1
          refine List.flatMap_congr fun n hn => ?_
          rw [ofRequest_filter_lt (List.mem_range.mp hn)]
      _ = publishedInTurn (k + 1) acts := by
          simp only [publishedInTurn, List.range_succ, List.flatMap_append, List.flatMap_singleton]

theorem InTurn.mem_after (h : InTurn (before ++ a :: after)) (hb : b ∈ before ++ a :: after)
    (hlt : a.request < b.request) : b ∈ after := by
  obtain ⟨-, -, hbefore⟩ := List.pairwise_append.mp h
  rcases List.mem_append.mp hb with hb | hb
  · exact absurd (hbefore b hb a List.mem_cons_self) (Nat.not_le.mpr hlt)
  · rcases List.mem_cons.mp hb with rfl | hb
    · exact absurd hlt (Nat.lt_irrefl _)
    · exact hb

namespace FaultyRun

theorem events_eq (h : FaultyRun d s reqs acts u) : ∃ since,
    u.world.events = s.world.events ++ since ∧ since.map Prod.snd = published acts := by
  induction h with
  | refl => exact ⟨[], (List.append_nil _).symm, rfl⟩
  | arrive _ req ih => exact ih
  | turn _ clock wall faults ih => exact ih
  | @act t u reqs acts a _ hstep ih =>
    obtain ⟨since, hsince, hpublished⟩ := ih
    obtain ⟨last, hlast, hone⟩ := World.events_performed hstep.performed.2
    refine ⟨since ++ last, ?_, ?_⟩
    · rw [hlast, hsince, List.append_assoc]
    · rw [List.map_append, hpublished, hone, published, published, filterMap_concat]

theorem held?_eq_none (h : FaultyRun d s reqs acts u) (hnone : s.world.store.held? id = none)
    (hid : ∀ a ∈ acts, a.stored? ≠ some id) : u.world.store.held? id = none := by
  induction h with
  | refl => exact hnone
  | arrive _ req ih => exact ih hid
  | turn _ clock wall faults ih => exact ih hid
  | @act t u reqs acts a _ hstep ih =>
    have ha : a ∈ acts ++ [a] := List.mem_append_right _ List.mem_cons_self
    have hbefore := ih fun b hb => hid b (List.mem_append_left _ hb)
    exact World.held?_performed hstep.performed.2 hbefore (hid a ha)

theorem custody (h : FaultyRun d s reqs acts u) (hidle : s.requests = [])
    (hdrawn : (drawn acts).Nodup) : ∃ holder, Custody holder u acts := by
  induction h with
  | refl => exact ⟨_, custody_of_idle hidle⟩
  | arrive _ req ih =>
    obtain ⟨holder, h⟩ := ih hdrawn
    exact ⟨holder, h.arrive req⟩
  | turn _ clock wall faults ih =>
    obtain ⟨holder, h⟩ := ih hdrawn
    exact ⟨holder, h.requests, h.yetToArrive, h.ledger⟩
  | act _ hstep ih =>
    have hbefore := hdrawn
    rw [drawn_append] at hbefore
    obtain ⟨holder, h⟩ := ih (List.nodup_append.mp hbefore).1
    exact h.step hstep hdrawn

theorem identityOf_ne_ok (h : FaultyRun d s reqs acts u) (hnone : s.world.store.held? id = none)
    (hid : ∀ a ∈ acts, a.stored? ≠ some id) {time : Instant}
    {answer : Except Session.StoreFault Session.Stored} (ha : ⟨n, time, .read id, answer⟩ ∈ acts)
    (who : Identity) : d.identityOf id answer ≠ .ok who := by
  obtain ⟨before, after, rfl⟩ := List.append_of_mem ha
  obtain ⟨_, _, t, v, hbefore, hstep, -⟩ := h.split_act
  have ht := hbefore.held?_eq_none hnone fun a ha => hid a (List.mem_append_left _ ha)
  obtain ⟨fault, hread⟩ := World.read_of_held?_eq_none ht
  have hanswer : (t.world.read id).1 = answer :=
    Except.ok.inj (congrArg Prod.fst hstep.performed.2)
  rw [← hanswer, hread]
  cases fault <;> exact nofun

theorem not_stored_again (h : FaultyRun d s reqs (before ++ a :: after) u) (hidle : s.requests = [])
    (hdrawn : (drawn (before ++ a :: after)).Nodup) (ha : a.stored? = some id) :
    ∀ b ∈ after, b.stored? ≠ some id := by
  intro b hb hstored
  obtain ⟨holder, hcustody⟩ := h.custody hidle hdrawn
  have honce := hcustody.ledger.kept_nodup
  have hcons : stored (a :: after) = id :: stored after :=
    List.filterMap_cons_some ha
  rw [stored_append, hcons] at honce
  have hlast := (List.nodup_append.mp honce).2.1
  exact (List.nodup_cons.mp hlast).1 (List.mem_filterMap.mpr ⟨b, hb, hstored⟩)

theorem session_ne (h : FaultyRun d s reqs acts u) (hidle : s.requests = []) (hturns : InTurn acts)
    (hdrawn : (drawn acts).Nodup) {l : Login} (hopens : Deployment.Opens l id i (ofRequest i acts))
    (hij : i < j) (hdeleted : id ∈ deleted (ofRequest j acts)) (hjk : j < k) {headers : Http.Headers}
    {who : Identity} (hwho : d.Identified headers k (ofRequest k acts) who) : who.session ≠ id := by
  rintro rfl
  -- The acts that count, in order: `i` stores the session, `j` deletes it and `k` finds it.
  obtain ⟨first, last, time, lifetime, hown, -, -⟩ := hopens.stored
  obtain ⟨early, late, rfl, -⟩ := exists_split_of_ofRequest hown
  obtain ⟨b, hown, hgone⟩ := List.mem_filterMap.mp hdeleted
  obtain ⟨hb, rfl⟩ := mem_ofRequest.mp hown
  obtain ⟨between, rest, rfl⟩ := List.append_of_mem (hturns.mem_after hb hij)
  obtain ⟨time', answer, hread, hanswer⟩ := hwho.exists_read
  have honce := h.not_stored_again hidle hdrawn rfl
  rw [← List.cons_append, ← List.append_assoc] at h hturns hread
  have hlate := hturns.mem_after (mem_ofRequest.mp hread).1 hjk
  obtain ⟨_, _, t, v, -, hstep, hafter⟩ := h.split_act
  have hnone := World.held?_of_deleted hstep.performed.2 hgone
  refine hafter.identityOf_ne_ok hnone (fun c hc => honce c ?_) hlate who hanswer
  exact List.mem_append_right _ (List.mem_cons_of_mem _ hc)

end FaultyRun

/-- The events of a run, against what its requests did. -/
structure Mirrors (d : Deployment) (s u : Traffic) (reqs : List Http.Request) (acts : List Act) :
    Prop where
  events : ∃ since, u.world.events = s.world.events ++ since ∧
    since.map Prod.snd = publishedInTurn reqs.length acts
  received : ∀ c : Channel (Instant × Event), c.KeepsUp Event.kept →
    u.world.events = s.world.events ++ c.sent →
      c.received.map Prod.snd = (publishedInTurn reqs.length acts).take c.next ∧
      (c.behind = 0 → c.received.map Prod.snd = publishedInTurn reqs.length acts)
  answered : ∀ n req response, reqs[n]? = some req → u.requests[n]? = some (.done response) →
    d.Announces req n (ofRequest n acts) response (published (ofRequest n acts))
  unanswered : ∀ n q, u.requests[n]? = some q → (∀ response, q ≠ .done response) →
    published (ofRequest n acts) = []
  expired : ∀ n req first rest, reqs[n]? = some req →
    Route.ofPath? (Http.pathOf req.target) = some .logout → ofRequest n acts = first ++ rest →
      (d.authorize req.headers).run.Took n first (.done (.error .expired)) →
        published (ofRequest n acts) = []
  once : (drawn acts).Nodup → ∀ l i j k req req' who who',
    Deployment.Opens l who.session i (ofRequest i acts) → i < j → i < k →
      d.LogsOut req j (ofRequest j acts) who → d.LogsOut req' k (ofRequest k acts) who' →
        who.session = who'.session → j = k

/-- Events mirror what was done. Where requests are served one after another, whatever fails, the events
are those that the requests call for, in their order: a login that succeeded, a logout that ended its
session and a revocation that succeeded publish one each, and nothing else does. A subscriber that
keeps up receives them all, and no session that a login opened is logged out twice. -/
theorem FaultyRun.mirrors (hidle : s.requests = []) (h : FaultyRun d s reqs acts u)
    (hturns : InTurn acts) : Mirrors d s u reqs acts := by
  have hlength : u.requests.length = reqs.length := by
    rw [h.length_requests, hidle, List.length_nil, Nat.zero_add]
  have hpublished := hturns.published_eq (hlength ▸ h.request_lt)
  obtain ⟨since, hsince, hevents⟩ := h.events_eq
  rw [hpublished] at hevents
  have htook : ∀ {n req}, reqs[n]? = some req → ∃ q, u.requests[n]? = some q ∧
      (d.serve req).Took n (ofRequest n acts) q := by
    intro n req hreq
    simpa [hidle] using h.took hreq
  constructor
  · exact ⟨since, hsince, hevents⟩
  · intro c hc hsent
    obtain rfl : since = c.sent := List.append_cancel_left (hsince.symm.trans hsent)
    obtain ⟨hle, hreceived⟩ := hc.received_eq
    rw [← hevents, hreceived, List.map_take]
    refine ⟨rfl, fun hbehind => ?_⟩
    rw [List.take_of_length_le]
    rw [List.length_map]
    exact Nat.le_of_sub_eq_zero hbehind
  · intro n req response hreq hresponse
    obtain ⟨q, hq, hown⟩ := htook hreq
    obtain rfl := Option.some.inj (hq.symm.trans hresponse)
    exact Deployment.announces_of_took hown
  · intro n q hq hundone
    have hlt : n < reqs.length := hlength ▸ (List.getElem?_eq_some_iff.mp hq).1
    obtain ⟨q', hq', hown⟩ := htook (List.getElem?_eq_getElem hlt)
    obtain rfl := Option.some.inj (hq'.symm.trans hq)
    exact Deployment.published_of_ne_done hown hundone
  · intro n req first rest hreq hroute hsplit hauth
    obtain ⟨q, -, hown⟩ := htook hreq
    rw [hsplit] at hown ⊢
    exact (Deployment.quiet_of_expired hroute hauth hown).published
  · intro hdrawn l i j k req req' who who' hopens hij hik hj hk hsame
    rcases Nat.lt_trichotomy j k with hlt | heq | hgt
    · exact absurd hsame.symm (h.session_ne hidle hturns hdrawn hopens hij hj.deleted hlt hk.identified)
    · exact heq
    · rw [hsame] at hopens
      exact absurd hsame (h.session_ne hidle hturns hdrawn hopens hik hk.deleted hgt hj.identified)

/-- Whoever logs out twice is told so the second time, and others hear of it once. -/
theorem FaultyRun.mirrors_sample : ∃ acts u,
    FaultyRun Sample.behindGateway ⟨Sample.signedIn, []⟩ [Sample.leaving, Sample.leaving] acts u ∧
    u.requests = [.done (Deployment.ok (.text logoutMessage)),
      .done (Deployment.failure Sample.leaving true)] ∧
    u.world.events.map Prod.snd = [.logout 7] := by
  let time := Sample.signedIn.clock
  let record := (Session.Record.ofProfile Sample.account.profile).asRead
  let first : List Act :=
    [⟨0, time, .read "first", .ok (.record record)⟩, ⟨0, time, .delete "first", .ok ()⟩,
      ⟨0, time, .note (.invalidated "first"), ()⟩, ⟨0, time, .publish (.logout 7), ()⟩]
  let second : List Act :=
    [⟨1, time, .read "first", .error .notFound⟩, ⟨1, time, .note (.rejected .noSession), ()⟩]
  have htook : (Sample.behindGateway.serve Sample.leaving).Took 0 first
      (.done (Deployment.ok (.text logoutMessage))) := by
    with_unfolding_all exact .cons (.cons (.cons (.cons (.nil _))))
  have htook' : (Sample.behindGateway.serve Sample.leaving).Took 1 second
      (.done (Deployment.failure Sample.leaving true)) := by
    with_unfolding_all exact .cons (.cons (.nil _))
  have hdid : ∃ v w, Sample.signedIn.Did 0 first v ∧ v.Did 1 second w := by
    with_unfolding_all exact ⟨_, _, .cons rfl (.cons rfl (.cons rfl (.cons rfl (.nil _)))),
      .cons rfl (.cons rfl (.nil _))⟩
  obtain ⟨v, w, hv, hw⟩ := hdid
  have hrun : FaultyRun Sample.behindGateway ⟨Sample.signedIn, []⟩ [Sample.leaving, Sample.leaving]
      (first ++ second) ⟨w, [.done (Deployment.ok (.text logoutMessage)),
        .done (Deployment.failure Sample.leaving true)]⟩ := by
    have hfirst := ((FaultyRun.refl ⟨Sample.signedIn, []⟩).arrive (d := Sample.behindGateway)
      Sample.leaving).did (n := 0) rfl htook hv
    exact (hfirst.arrive Sample.leaving).did (n := 1) rfl htook' hw
  have hturns : InTurn (first ++ second) := by
    simp [InTurn, first, second]
  obtain ⟨since, hsince, hevents⟩ := (FaultyRun.mirrors rfl hrun hturns).events
  refine ⟨_, _, hrun, rfl, ?_⟩
  rw [hsince]
  exact hevents

end Traffic

end SessionGate
