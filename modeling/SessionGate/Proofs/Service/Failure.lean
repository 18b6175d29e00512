import SessionGate.Proofs.Service.Frame
import SessionGate.Proofs.Service.Orderly

/-!
A request at which an operation of the store or of the directory failed. Whatever it did before, it has
changed nothing, and all that is left is to take notes and to give an answer that does not depend on why
the operation failed (`Deployment.took_failed`). Where a gate could not look up a session, the handler
behind it has no part in that (`Gate.took_unread`).
-/

namespace SessionGate

namespace Act

def published? : Act → Option Event
  | ⟨_, _, .publish e, _⟩ => some e
  | _ => none

/-- An operation of the store or of the directory failed, in the second case because a session that was
looked up is not there. -/
inductive Fails : Act → Bool → Prop
  | find (n : Nat) (time : Instant) (username : String) (fault : DirectoryFault) :
      Fails ⟨n, time, .find username, .error fault⟩ false
  | create (n : Nat) (time : Instant) (id : String) (r : Session.Record) (lifetime : Nat)
      (fault : Session.StoreFault) : Fails ⟨n, time, .create id r lifetime, .error fault⟩ false
  | delete (n : Nat) (time : Instant) (id : String) (fault : Session.StoreFault) :
      Fails ⟨n, time, .delete id, .error fault⟩ false
  | read (n : Nat) (time : Instant) (id : String) (fault : Session.StoreFault) :
      Fails ⟨n, time, .read id, .error fault⟩ (fault = .notFound)

def Changes (a : Act) : Prop := a.op.IsChange ∧ a.op.refusal? a.answer = none

theorem Fails.refusal? {a : Act} {missed : Bool} (h : a.Fails missed) :
    ∃ r, a.op.refusal? a.answer = some r ∧ missed = decide (r = .noSession) := by
  cases h with
  | find | create | delete => exact ⟨_, rfl, rfl⟩
  | read n time id fault => cases fault <;> exact ⟨_, rfl, rfl⟩

end Act

def published (acts : List Act) : List Event := acts.filterMap Act.published?

theorem published_append (acts more : List Act) :
    published (acts ++ more) = published acts ++ published more := List.filterMap_append ..

/-- Nothing is stored, nothing is deleted and nothing is published. -/
structure Quiet (acts : List Act) : Prop where
  stored : stored acts = []
  deleted : deleted acts = []
  published : published acts = []

theorem quiet_of_forall {acts : List Act} (h : ∀ a ∈ acts, ¬ a.Changes) : Quiet acts := by
  have hnone : ∀ a ∈ acts, a.stored? = none ∧ a.deleted? = none ∧ a.published? = none := by
    rintro ⟨n, time, op, answer⟩ ha
    have hop := h _ ha
    cases op with
    | create id r lifetime =>
      rcases answer with fault | ⟨⟩
      · exact ⟨rfl, rfl, rfl⟩
      · exact absurd ⟨.inl trivial, rfl⟩ hop
    | delete id =>
      rcases answer with fault | ⟨⟩
      · exact ⟨rfl, rfl, rfl⟩
      · exact absurd ⟨.inl trivial, rfl⟩ hop
    | publish e => exact absurd ⟨.inr trivial, rfl⟩ hop
    | _ => exact ⟨rfl, rfl, rfl⟩
  constructor
  · exact List.filterMap_eq_nil_iff.mpr fun a ha => (hnone a ha).1
  · exact List.filterMap_eq_nil_iff.mpr fun a ha => (hnone a ha).2.1
  · exact List.filterMap_eq_nil_iff.mpr fun a ha => (hnone a ha).2.2

namespace Program

variable {n : Nat} {acts : List Act}

theorem Only.took {allowed : {β : Type} → Effect β → Prop} {p q : Program Effect α}
    (h : p.Only allowed) (htook : p.Took n acts q) :
    (∀ a ∈ acts, allowed a.op) ∧ q.Only allowed := by
  induction htook with
  | nil p => exact ⟨fun a ha => absurd ha List.not_mem_nil, h⟩
  | @cons β op next time b acts q htook ih =>
    obtain ⟨hop, hnext⟩ := h
    obtain ⟨hacts, hq⟩ := ih (hnext b)
    refine ⟨fun a ha => ?_, hq⟩
    rcases List.mem_cons.mp ha with rfl | ha
    · exact hop
    · exact hacts a ha

theorem Settled.took {p q : Program Effect α} {x : α} (h : p.Settled x) (htook : p.Took n acts q) :
    q.Settled x := by
  induction htook with
  | nil p => exact h
  | cons htook ih =>
    obtain ⟨notes, h⟩ := h
    cases notes with
    | nil => cases h
    | cons note notes =>
      cases h
      exact ih ⟨notes, rfl⟩

theorem eq_of_took_done {x : α} {q : Program Effect α} (h : (done x).Took n acts q) :
    acts = [] ∧ q = done x := by
  cases h
  exact ⟨rfl, rfl⟩

theorem eq_of_settled_done {x y : α} (h : (done x).Settled y) : x = y := by
  obtain ⟨notes, h⟩ := h
  cases notes <;> cases h
  rfl

theorem Harmless.took {p q : Program Effect α} (h : p.Harmless) (htook : p.Took n acts q) :
    ∀ a ∈ acts, a.op.refusal? a.answer = none ∧ ¬ a.Changes := by
  intro a ha
  have hop := (Only.took h htook).1 a ha
  exact ⟨Effect.refusal?_of_isHarmless hop a.answer,
    fun hchange => Effect.not_isChange_of_isHarmless hop hchange.1⟩

theorem Closing.took {p q : Program Effect α} (h : p.Closing) (htook : p.Took n acts q) :
    ∀ a ∈ acts, a.op.refusal? a.answer = none := by
  induction htook with
  | nil p => exact fun a ha => absurd ha List.not_mem_nil
  | @cons β op next time b acts q htook ih =>
    intro a ha
    rcases h with ⟨hop, hnext⟩ | ⟨hop, hnext⟩
    · rcases List.mem_cons.mp ha with rfl | ha
      · exact Effect.refusal?_of_isHarmless (Effect.isHarmless_of_isNote hop) b
      · exact ih (hnext b) a ha
    · rcases List.mem_cons.mp ha with rfl | ha
      · cases op with
        | publish e => rfl
        | _ => cases hop
      · obtain ⟨x, hx⟩ := hnext b
        exact ih (hx ▸ trivial) a ha

/-- Before an operation that fails nothing is changed, and after it there is only its refusal. -/
theorem Orderly.took {answer : Refusal → α} {p q : Program Effect α} (h : p.Orderly answer)
    (htook : p.Took n acts q) {a : Act} (ha : a ∈ acts) {r : Refusal}
    (hr : a.op.refusal? a.answer = some r) : (∀ x ∈ acts, ¬ x.Changes) ∧ q.Settled (answer r) := by
  induction htook with
  | nil p => cases ha
  | @cons β op next time b acts q htook ih =>
    obtain ⟨hfault, hgood⟩ := h b
    rw [List.forall_mem_cons]
    rcases List.mem_cons.mp ha with rfl | ha
    · have hsettled := hfault r hr
      refine ⟨⟨fun hchange => ?_, fun x hx => ?_⟩, hsettled.took htook⟩
      · cases hchange.2.symm.trans hr
      · exact (hsettled.harmless.took htook x hx).2
    · cases hop : op.refusal? b with
      | some r' =>
        -- Nothing fails twice: after the first failure there are only notes.
        have hnone := ((hfault r' hop).harmless.took htook a ha).1
        cases hnone.symm.trans hr
      | none =>
        obtain ⟨hwrite, hpublish, hrest⟩ := hgood hop
        by_cases hchange : op.IsChange
        · rcases hchange with hchange | hchange
          · have hnone := (hwrite hchange).took htook a ha
            cases hnone.symm.trans hr
          · obtain ⟨x, hx⟩ := hpublish hchange
            rw [hx] at htook
            obtain ⟨rfl, -⟩ := eq_of_took_done htook
            cases ha
        · obtain ⟨hacts, hq⟩ := ih (hrest hchange) ha
          exact ⟨⟨fun h => hchange h.1, hacts⟩, hq⟩

theorem Closing.took_publish {p q : Program Effect α} (h : p.Closing) (htook : p.Took n acts q)
    {a : Act} (ha : a ∈ acts) (hpublish : a.op.IsPublish) : ∃ x, q = done x := by
  induction htook with
  | nil p => cases ha
  | @cons β op next time b acts q htook ih =>
    rcases List.mem_cons.mp ha with rfl | ha
    · rcases h with ⟨hop, -⟩ | ⟨-, hnext⟩
      · cases op with
        | note n => cases hpublish
        | _ => cases hop
      · obtain ⟨x, hx⟩ := hnext b
        exact ⟨x, (eq_of_took_done (hx ▸ htook)).2⟩
    · rcases h with ⟨-, hnext⟩ | ⟨-, hnext⟩
      · exact ih (hnext b) ha
      · obtain ⟨x, hx⟩ := hnext b
        exact ih (hx ▸ trivial) ha

theorem Orderly.took_publish {answer : Refusal → α} {p q : Program Effect α}
    (h : p.Orderly answer) (htook : p.Took n acts q) {a : Act} (ha : a ∈ acts)
    (hpublish : a.op.IsPublish) : ∃ x, q = done x := by
  induction htook with
  | nil p => cases ha
  | @cons β op next time b acts q htook ih =>
    obtain ⟨hfault, hgood⟩ := h b
    cases hop : op.refusal? b with
    | some r =>
      rcases List.mem_cons.mp ha with rfl | ha
      · cases op <;> first | cases hop | cases hpublish
      · have hrest := (Only.took (hfault r hop).harmless htook).1 a ha
        exact absurd (.inr hpublish) (Effect.not_isChange_of_isHarmless hrest)
    | none =>
      obtain ⟨hwrite, hdone, hrest⟩ := hgood hop
      rcases List.mem_cons.mp ha with rfl | ha
      · obtain ⟨x, hx⟩ := hdone hpublish
        exact ⟨x, (eq_of_took_done (hx ▸ htook)).2⟩
      · by_cases hchange : op.IsChange
        · rcases hchange with hchange | hchange
          · exact (hwrite hchange).took_publish htook ha hpublish
          · obtain ⟨x, hx⟩ := hdone hchange
            exact ⟨x, (eq_of_took_done (hx ▸ htook)).2⟩
        · exact ih (hrest hchange) ha

theorem Took.bind {p p' : Program Effect α} (h : p.Took n acts p') (f : α → Program Effect β) :
    (p >>= f).Took n acts (p' >>= f) := by
  induction h with
  | nil p => exact .nil _
  | cons h ih => exact .cons ih

theorem took_bind_cases {p : Program Effect α} {f : α → Program Effect β} {q : Program Effect β}
    (h : (p >>= f).Took n acts q) : (∃ p', p.Took n acts p' ∧ q = p' >>= f) ∨
      ∃ a first rest, acts = first ++ rest ∧ p.Took n first (.done a) ∧ (f a).Took n rest q := by
  induction p generalizing acts with
  | done a => exact .inr ⟨a, [], acts, rfl, .nil _, h⟩
  | ask op next ih =>
    cases h with
    | nil => exact .inl ⟨_, .nil _, rfl⟩
    | @cons _ _ _ _ answer rest _ h =>
      rcases ih answer h with ⟨p', hp, rfl⟩ | ⟨a, first, last, rfl, hp, hf⟩
      · exact .inl ⟨p', .cons hp, rfl⟩
      · exact .inr ⟨a, _ :: first, last, rfl, .cons hp, hf⟩

theorem took_map {p : Program Effect α} {g : α → β} {q : Program Effect β}
    (h : (p >>= fun a => pure (g a)).Took n acts q) : ∃ p', p.Took n acts p' := by
  rcases took_bind_cases h with ⟨p', hp, -⟩ | ⟨a, first, rest, rfl, hp, hrest⟩
  · exact ⟨p', hp⟩
  · obtain ⟨rfl, -⟩ := eq_of_took_done hrest
    exact ⟨done a, by simpa using hp⟩

theorem Discreet.unreading {p : Program Effect α} (h : p.Discreet) :
    p.Only fun op => ¬ op.IsRead :=
  h.mono fun _ hop => hop.2

end Program

namespace Deployment

/-- The answer to a request at which an operation failed: not found is told apart, and nothing else. -/
def failure (req : Http.Request) (missed : Bool) : Http.Response where
  status := if missed then 401 else 500
  contentType := some "application/json"
  allow := (Route.ofPath? (Http.pathOf req.target)).bind fun r =>
    if req.method ∈ r.methods then none else some r.allow
  body := if req.method = "HEAD" then ""
    else (failureEnvelope (if missed then "Unauthorized" else "Internal Server Error")).write

theorem failure_ne_ok (req : Http.Request) (missed : Bool) (data : Json) :
    failure req missed ≠ ok data := by
  intro h
  have hstatus : (if missed then 401 else 500) = 200 := congrArg Http.Response.status h
  cases missed <;> cases hstatus

/-- An answer from in front of a route, as it is sent. -/
def sent (req : Http.Request) (r : Route) (response : Http.Response) : Http.Response :=
  dropBody req.method
    (if req.method ∈ r.methods then response else { response with allow := some r.allow })

variable {d : Deployment} {req : Http.Request} {route : Route}

theorem sent_of_ofFault {r : Refusal} (hr : r.OfFault)
    (hroute : Route.ofPath? (Http.pathOf req.target) = some route) :
    sent req route r.response = failure req (r = .noSession) := by
  have hdropped : ∀ (allow : Option String) (status : Nat) (message : String), status / 100 ≠ 2 →
      dropBody req.method ⟨status, some "application/json", allow, message⟩ =
        ⟨status, some "application/json", allow, if req.method = "HEAD" then "" else message⟩ := by
    intro allow status message hstatus
    unfold dropBody
    split
    · rfl
    · exact if_neg fun h => hstatus h.2
  rw [sent, failure, hroute, Option.bind_some]
  split
  all_goals
    cases r with
    | store | directory => exact hdropped _ 500 _ (by decide)
    | noSession => exact hdropped _ 401 _ (by decide)
    | _ => cases hr

theorem orderly_serve (hroute : Route.ofPath? (Http.pathOf req.target) = some route) :
    (d.serve req).Orderly fun r => sent req route r.response := by
  have hanswer : (d.answer req route).Orderly fun r =>
      if req.method ∈ route.methods then r.response
      else { r.response with allow := some route.allow } := by
    by_cases hmethod : req.method ∈ route.methods
    · simp only [answer, if_pos hmethod]
      exact Gate.orderly_stack d req.headers route.gates (d.orderly_handler req route) none
    · simp only [answer, if_neg hmethod]
      have hempty : ∀ _ : Option Identity,
          (pure (.empty 405) : Program Effect Http.Response).Orderly Refusal.response :=
        fun _ => trivial
      exact (Gate.orderly_stack d req.headers route.gates hempty none).map fun response =>
        { response with allow := some route.allow }
  rw [serve, hroute]
  exact hanswer.map (dropBody req.method)

/-- A request at which an operation failed has changed nothing, and its answer is settled. -/
theorem took_failed {n : Nat} {acts : List Act} {q : Program Effect Http.Response}
    (htook : (d.serve req).Took n acts q) {a : Act} (ha : a ∈ acts) {missed : Bool}
    (hfails : a.Fails missed) : Quiet acts ∧ q.Settled (failure req missed) := by
  obtain ⟨r, hr, rfl⟩ := hfails.refusal?
  cases hroute : Route.ofPath? (Http.pathOf req.target) with
  | none =>
    rw [serve, hroute] at htook
    obtain ⟨rfl, -⟩ := Program.eq_of_took_done htook
    cases ha
  | some route =>
    obtain ⟨hacts, hq⟩ := (orderly_serve hroute).took htook ha hr
    rw [sent_of_ofFault (Effect.ofFault_of_refusal? hr) hroute] at hq
    exact ⟨quiet_of_forall hacts, hq⟩

end Deployment

namespace Gate

open Program

variable {d : Deployment} {headers : Http.Headers} {n : Nat} {acts : List Act}
  {q : Program Effect Http.Response} {a : Act} {r : Refusal}

theorem took_authorize_failed {f f' : Except Refusal Identity → Program Effect Http.Response}
    (herror : ∀ refusal, f (.error refusal) = f' (.error refusal))
    (hharmless : ∀ refusal, (f (.error refusal)).Harmless)
    (hsettled : ∀ refusal, refusal.OfFault → (f (.error refusal)).Settled refusal.response)
    (hr : a.op.refusal? a.answer = some r)
    (hnext : ∀ who rest q, (f (.ok who)).Took n rest q → a ∈ rest →
      ∃ q', (f' (.ok who)).Took n rest q' ∧ q'.Settled r.response)
    (htook : ((d.authorize headers).run >>= f).Took n acts q) (ha : a ∈ acts) :
    ∃ q', ((d.authorize headers).run >>= f').Took n acts q' ∧ q'.Settled r.response := by
  -- It failed while somebody was being identified, or only in what comes next.
  have horderly := (d.mild_authorize headers).orderly
  have hrefused := hsettled r (Effect.ofFault_of_refusal? hr)
  rcases took_bind_cases htook with ⟨p', hp, rfl⟩ | ⟨result, first, rest, rfl, hp, hf⟩
  · obtain ⟨-, hp'⟩ := horderly.took hp ha hr
    exact ⟨p' >>= f', hp.bind f', hp'.bind (herror r ▸ hrefused)⟩
  · rcases List.mem_append.mp ha with ha | ha
    · obtain rfl := eq_of_settled_done (horderly.took hp ha hr).2
      have hq := hrefused.took hf
      rw [herror r] at hf
      exact ⟨q, (hp.bind f').append hf, hq⟩
    · rcases result with refusal | who
      · have hnone := ((hharmless refusal).took hf a ha).1
        cases hnone.symm.trans hr
      · obtain ⟨q', hrest, hq'⟩ := hnext who rest q hf ha
        exact ⟨q', (hp.bind f').append hrest, hq'⟩

theorem took_guard_failed {next next' : Handler} (hr : a.op.refusal? a.answer = some r)
    (hnext : ∀ who rest q, (next who).Took n rest q → a ∈ rest →
      ∃ q', (next' who).Took n rest q' ∧ q'.Settled r.response)
    (g : Gate) (who : Option Identity) (htook : (g.guard d headers next who).Took n acts q)
    (ha : a ∈ acts) :
    ∃ q', (g.guard d headers next' who).Took n acts q' ∧ q'.Settled r.response := by
  have hnever : ∀ {p : Program Effect Http.Response}, p.Harmless → ¬ p.Took n acts q := by
    intro p hp htook
    cases ((hp.took htook a ha).1).symm.trans hr
  cases g with
  | session =>
    refine took_authorize_failed (fun _ => rfl) ?_ ?_ hr (fun who => hnext (some who)) htook ha
    · exact fun refusal => (settled_refuse refusal).harmless
    · exact fun refusal _ => settled_refuse refusal
  | logout =>
    refine took_authorize_failed ?_ ?_ ?_ hr (fun who => hnext (some who)) htook ha
    · intro refusal
      cases refusal <;> rfl
    · intro refusal
      cases refusal with
      | expired => exact Settled.harmless ⟨[_], rfl⟩
      | _ => exact (settled_refuse _).harmless
    · intro refusal hfault
      cases refusal <;> first | exact settled_refuse _ | cases hfault
  | role required =>
    cases who with
    | none => exact absurd htook (hnever (settled_refuse _).harmless)
    | some who =>
      dsimp only [guard] at htook ⊢
      split at htook
      · next hrole =>
        rw [if_pos hrole]
        exact hnext (some who) acts q htook ha
      · exact absurd htook (hnever ((settled_refuse _).note _).harmless)
  | subscription =>
    cases who with
    | none => exact absurd htook (hnever (settled_refuse _).harmless)
    | some who =>
      dsimp only [guard] at htook ⊢
      split at htook
      · next hactive =>
        rw [if_pos hactive]
        exact hnext (some who) acts q htook ha
      · exact absurd htook (hnever ((settled_refuse _).note _).harmless)

/-- Where a gate could not look up a session, the handler that would come next makes no difference. -/
theorem took_unread {handler : Handler}
    (hhandler : ∀ who, (handler who).Only fun op => ¬ op.IsRead) (hread : a.op.IsRead)
    (hr : a.op.refusal? a.answer = some r) {gates : List Gate} {who : Option Identity}
    (htook : (stack d headers gates handler who).Took n acts q) (ha : a ∈ acts) (other : Handler) :
    ∃ q', (stack d headers gates other who).Took n acts q' ∧ q'.Settled r.response := by
  induction gates generalizing who acts q with
  | nil => exact absurd hread ((Only.took (hhandler who) htook).1 a ha)
  | cons g gates ih => exact took_guard_failed hr (fun who rest q => ih) g who htook ha

end Gate

namespace Deployment

open Program

variable {d : Deployment} {req : Http.Request} {route : Route} {n : Nat} {acts : List Act}
  {q : Program Effect Http.Response}

theorem unreading_refuse (r : Refusal) : (refuse r).Only fun op => ¬ op.IsRead :=
  only_refuse (fun _ => id) r

theorem unreading_handler (d : Deployment) (req : Http.Request) (r : Route)
    (who : Option Identity) : (d.handler req r who).Only fun op => ¬ op.IsRead := by
  apply only_handler (fun _ => id) (fun _ => id) (fun _ => id)
  intro _
  unfold answerLogin
  cases readCredentials req with
  | error response => trivial
  | ok c =>
    apply only_bind (d.discreet_login c).unreading
    rintro (r | l)
    · exact unreading_refuse r
    · exact only_bind (only_perform id) fun _ => trivial

theorem took_stack (hroute : Route.ofPath? (Http.pathOf req.target) = some route)
    (htook : (d.serve req).Took n acts q) : ∃ handler q',
      (Gate.stack d req.headers route.gates handler none).Took n acts q' ∧
      (handler = d.handler req route ∨ handler = fun _ => pure (.empty 405)) := by
  rw [serve, hroute] at htook
  obtain ⟨p, hanswer⟩ := took_map htook
  unfold answer at hanswer
  split at hanswer
  · exact ⟨_, p, hanswer, .inl rfl⟩
  · obtain ⟨p', hstack⟩ := took_map hanswer
    exact ⟨_, p', hstack, .inr rfl⟩

/-- A request whose session could not be looked up goes as it would in front of any handler. -/
theorem took_unread (hroute : Route.ofPath? (Http.pathOf req.target) = some route)
    (htook : (d.serve req).Took n acts q) {a : Act} (ha : a ∈ acts) (hread : a.op.IsRead)
    {r : Refusal} (hr : a.op.refusal? a.answer = some r) (other : Handler) :
    ∃ q', (Gate.stack d req.headers route.gates other none).Took n acts q' ∧
      q'.Settled r.response := by
  obtain ⟨handler, p, hstack, hhandler⟩ := took_stack hroute htook
  have hunreading : ∀ who, (handler who).Only fun op => ¬ op.IsRead := by
    rcases hhandler with rfl | rfl
    · exact d.unreading_handler req route
    · exact fun _ => trivial
  exact Gate.took_unread hunreading hread hr hstack ha other

end Deployment

end SessionGate
