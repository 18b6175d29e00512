import SessionGate.Proofs.Service.Failure

/-!
What a request tells others, by how it was answered and what it did. A login that succeeds, a logout
that ends the session it acts as and a revocation that succeeds publish one event each, and nothing else
publishes any: `Deployment.announces_of_took`. A token is given out only once its record is stored.
-/

namespace SessionGate

namespace Quiet

variable {acts more : List Act}

theorem deleted_left (h : Quiet acts) (more : List Act) :
    SessionGate.deleted (acts ++ more) = SessionGate.deleted more := by
  rw [deleted_append, h.deleted, List.nil_append]

theorem published_left (h : Quiet acts) (more : List Act) :
    SessionGate.published (acts ++ more) = SessionGate.published more := by
  rw [published_append, h.published, List.nil_append]

theorem append (h : Quiet acts) (h' : Quiet more) : Quiet (acts ++ more) where
  stored := by rw [stored_append, h.stored, h'.stored, List.append_nil]
  deleted := (h.deleted_left more).trans h'.deleted
  published := (h.published_left more).trans h'.published

end Quiet

namespace Program

variable {n : Nat} {acts : List Act}

theorem Only.quiet {p q : Program Effect α} (h : p.Only fun op => ¬ op.IsChange)
    (htook : p.Took n acts q) : Quiet acts :=
  quiet_of_forall fun a ha hchange => (h.took htook).1 a ha hchange.1

theorem Discreet.published_eq {p q : Program Effect α} (h : p.Discreet) (htook : p.Took n acts q) :
    published acts = [] := by
  apply List.filterMap_eq_nil_iff.mpr
  rintro ⟨m, time, op, answer⟩ ha
  have hop := ((Only.took h htook).1 _ ha).1
  cases op with
  | publish e => exact absurd trivial hop
  | _ => rfl

theorem took_publish {e : Event} {x y : α}
    (h : (perform (.publish e) >>= fun _ => pure x : Program Effect α).Took n acts (.done y)) :
    (∃ time, acts = [⟨n, time, .publish e, ()⟩]) ∧ y = x := by
  obtain ⟨time, answer, rest, rfl, hrest⟩ := took_ask h
  obtain ⟨rfl, rfl⟩ := took_done hrest
  exact ⟨⟨time, rfl⟩, rfl⟩

theorem took_bind_rest {p : Program Effect α} {f : α → Program Effect β} {a : α}
    {first rest : List Act} {q : Program Effect β} (hp : p.Took n first (.done a))
    (h : (p >>= f).Took n (first ++ rest) q) : (f a).Took n rest q := by
  generalize hdone : done a = p' at hp
  induction hp with
  | nil p =>
    subst hdone
    exact h
  | cons _ ih =>
    cases h with
    | cons h => exact ih h hdone

end Program

namespace Deployment

open Program

variable {d : Deployment} {n : Nat} {acts : List Act} {req : Http.Request}
  {response : Http.Response}

theorem quiet_refuse {r : Refusal} {q : Program Effect Http.Response}
    (h : (refuse r).Took n acts q) : Quiet acts :=
  (only_refuse (fun _ => not_or.mpr ⟨id, id⟩) r).quiet h

/-- A session that was opened: the token names it, and the last that was done to the store is that
the profile was stored under its id. -/
structure Opens (l : Login) (id : String) (n : Nat) (acts : List Act) : Prop where
  named : Token.sessionOf? l.token = some id
  stored : ∃ before after time lifetime,
    acts = before ++ ⟨n, time, .create id (.ofProfile l.profile) lifetime, .ok ()⟩ :: after ∧
    stored after = [] ∧ deleted after = []

theorem Opens.append {l : Login} {id : String} {more : List Act} (h : Opens l id n acts)
    (hstored : SessionGate.stored more = []) (hdeleted : deleted more = []) :
    Opens l id n (acts ++ more) where
  named := h.named
  stored := by
    obtain ⟨before, after, time, lifetime, rfl, hafter, hafter'⟩ := h.stored
    refine ⟨before, after ++ more, time, lifetime, by simp, ?_, ?_⟩
    · rw [stored_append, hafter, hstored, List.append_nil]
    · rw [deleted_append, hafter', hdeleted, List.append_nil]

theorem opens_of_took_login {c : Credentials} {l : Login}
    (h : (d.login c).run.Took n acts (.done (.ok l))) : ∃ id, Opens l id n acts := by
  obtain ⟨profile, first, rest, rfl, -, hrest⟩ := took_serve_bind h
  obtain ⟨issued, second, rest, rfl, htoken, hrest⟩ := took_serve_bind hrest
  obtain ⟨_, third, last, rfl, hpersist, hlast⟩ := took_serve_bind hrest
  obtain ⟨rfl, hl⟩ := took_done (a := (Except.ok _ : Except Refusal Login)) hlast
  obtain rfl := Except.ok.inj hl
  obtain ⟨time, now, expiry, time', number, rfl, -, hissue⟩ := took_createToken htoken
  obtain ⟨time₁, now', time₂, time₃, rfl⟩ := took_persist hpersist
  obtain ⟨htoken, hsession, -, -⟩ := Token.Authority.issue_eq_ok hissue
  refine ⟨issued.session, ?_, ?_⟩
  · exact (Token.Authority.sessionOf?_tokenOf? htoken).trans (congrArg some hsession.symm)
  · refine ⟨first ++ [⟨n, time, .now, now⟩, ⟨n, time', .draw, number⟩, ⟨n, time₁, .now, now'⟩],
      [⟨n, time₃, .note (.created issued.session profile.id), ()⟩], time₂,
      (issued.remaining now').toNat, ?_, rfl, rfl⟩
    simp

theorem took_answerLogin_cases (h : (d.answerLogin req).Took n acts (.done response)) :
    (∃ l id, response = ok l.toJson ∧ Opens l id n acts ∧
      published acts = [.login l.profile.id]) ∨
      (response.status ≠ 200 ∧ published acts = []) := by
  unfold answerLogin at h
  cases hread : readCredentials req with
  | error refused =>
    rw [hread] at h
    obtain ⟨rfl, rfl⟩ := took_done h
    exact .inr ⟨status_of_readCredentials hread, rfl⟩
  | ok c =>
    rw [hread] at h
    obtain ⟨result, first, rest, rfl, hlogin, hrest⟩ := took_bind h
    have hnone := (d.discreet_login c).published_eq hlogin
    rw [published_append, hnone, List.nil_append]
    rcases result with r | l
    · rw [took_refuse hrest]
      exact .inr ⟨status_response_ne r, (quiet_refuse hrest).published⟩
    · obtain ⟨⟨time, rfl⟩, rfl⟩ := took_publish hrest
      obtain ⟨id, hopens⟩ := opens_of_took_login hlogin
      exact .inl ⟨l, id, rfl, hopens.append rfl rfl, rfl⟩

theorem took_invalidate {session : String} {result : Except Refusal Unit}
    (h : (invalidate session).run.Took n acts (.done result)) :
    (result = .ok () ∧ deleted acts = [session]) ∨
      ((∃ r, result = .error r) ∧ deleted acts = []) := by
  obtain ⟨time, answer, rest, rfl, hrest⟩ := took_ask h
  rcases answer with fault | ⟨⟩
  · obtain ⟨time', _, last, rfl, hlast⟩ := took_ask hrest
    obtain ⟨rfl, rfl⟩ := took_done hlast
    exact .inr ⟨⟨_, rfl⟩, rfl⟩
  · obtain ⟨time', _, last, rfl, hlast⟩ := took_ask hrest
    obtain ⟨rfl, rfl⟩ := took_done hlast
    exact .inl ⟨rfl, rfl⟩

theorem took_answerLogout_cases {who : Identity}
    (h : (answerLogout who).Took n acts (.done response)) :
    (deleted acts = [who.session] ∧ published acts = [.logout who.subject]) ∨
      (deleted acts = [] ∧ published acts = []) := by
  obtain ⟨result, first, rest, rfl, hinvalidate, hrest⟩ := took_bind h
  have hnone := (discreet_invalidate who.session).published_eq hinvalidate
  rw [published_append, deleted_append, hnone, List.nil_append]
  rcases took_invalidate hinvalidate with ⟨rfl, hdeleted⟩ | ⟨⟨r, rfl⟩, hdeleted⟩
  · obtain ⟨time, answer, last, rfl, hlast⟩ := took_ask hrest
    obtain ⟨rfl, rfl⟩ := took_done hlast
    rw [hdeleted]
    exact .inl ⟨rfl, rfl⟩
  · have hquiet := quiet_refuse hrest
    rw [hdeleted, hquiet.deleted]
    exact .inr ⟨rfl, hquiet.published⟩

theorem took_answerRevoke_cases {part : String} {who : Identity}
    (h : (answerRevoke part who).Took n acts (.done response)) :
    (∃ id, Http.percentDecode? part = some id ∧ response.status = 200 ∧
      published acts = [.revoked id who.subject]) ∨
      (response.status ≠ 200 ∧ published acts = []) := by
  unfold answerRevoke at h
  cases hpart : Http.percentDecode? part with
  | none =>
    rw [hpart] at h
    obtain ⟨rfl, rfl⟩ := took_done h
    exact .inr ⟨by decide, rfl⟩
  | some id =>
    rw [hpart] at h
    obtain ⟨result, first, rest, rfl, hinvalidate, hrest⟩ := took_bind h
    have hnone := (discreet_invalidate id).published_eq hinvalidate
    rw [published_append, hnone, List.nil_append]
    rcases result with r | ⟨⟩
    · rw [took_refuse hrest]
      exact .inr ⟨status_response_ne r, (quiet_refuse hrest).published⟩
    · obtain ⟨time, answer, last, rfl, hlast⟩ := took_ask hrest
      obtain ⟨⟨time', rfl⟩, rfl⟩ := took_publish hlast
      exact .inl ⟨id, rfl, rfl, rfl⟩

/-- A request is found to act as somebody before it does anything else. -/
def Identified (d : Deployment) (headers : Http.Headers) (n : Nat) (acts : List Act)
    (who : Identity) : Prop :=
  ∃ first rest, acts = first ++ rest ∧ (d.authorize headers).run.Took n first (.done (.ok who))

/-- A logout reaches its handler, and the session that it acts as is deleted. -/
structure LogsOut (d : Deployment) (req : Http.Request) (n : Nat) (acts : List Act)
    (who : Identity) : Prop where
  route : Route.ofPath? (Http.pathOf req.target) = some .logout
  method : req.method = "POST"
  identified : d.Identified req.headers n acts who
  deleted : who.session ∈ deleted acts

/-- What a request is to tell others, by its answer and what it did: one event for a login that
succeeded, for a logout that ended its session and for a revocation that succeeded, and nothing else. -/
inductive Announces (d : Deployment) (req : Http.Request) (n : Nat) (acts : List Act)
    (response : Http.Response) : List Event → Prop
  | login (l : Login) (id : String)
      (hroute : Route.ofPath? (Http.pathOf req.target) = some .login)
      (hstatus : response.status = 200) (hresponse : response = ok l.toJson)
      (hopens : Opens l id n acts) : Announces d req n acts response [.login l.profile.id]
  | logout (who : Identity) (h : d.LogsOut req n acts who) :
      Announces d req n acts response [.logout who.subject]
  | revoke (part id : String) (who : Identity)
      (hroute : Route.ofPath? (Http.pathOf req.target) = some (.revoke part))
      (hmethod : req.method = "DELETE") (hstatus : response.status = 200)
      (hid : Http.percentDecode? part = some id) (hwho : d.Identified req.headers n acts who) :
      Announces d req n acts response [.revoked id who.subject]
  | nothing (hlogin : Route.ofPath? (Http.pathOf req.target) = some .login → response.status ≠ 200)
      (hlogout : ∀ who, ¬ d.LogsOut req n acts who)
      (hrevoke : ∀ part, Route.ofPath? (Http.pathOf req.target) = some (.revoke part) →
        req.method = "DELETE" → response.status ≠ 200) : Announces d req n acts response []

end Deployment

namespace Gate

open Program Deployment

variable {d : Deployment} {headers : Http.Headers} {n : Nat} {acts : List Act} {next : Handler}
  {response : Http.Response}

theorem took_session_cases
    (h : (session.guard d headers next none).Took n acts (.done response)) :
    (∃ who first rest, acts = first ++ rest ∧ Quiet first ∧
      (d.authorize headers).run.Took n first (.done (.ok who)) ∧
      (next (some who)).Took n rest (.done response)) ∨ (response.status ≠ 200 ∧ Quiet acts) := by
  obtain ⟨result, first, rest, rfl, hauth, hrest⟩ := took_bind h
  have hfirst := (d.mild_authorize headers).unchanging.quiet hauth
  rcases result with r | who
  · rw [took_refuse hrest]
    exact .inr ⟨status_response_ne r, hfirst.append (quiet_refuse hrest)⟩
  · exact .inl ⟨who, first, rest, rfl, hfirst, hauth, hrest⟩

theorem took_logout_cases
    (h : (logout.guard d headers next none).Took n acts (.done response)) :
    (∃ who first rest, acts = first ++ rest ∧ Quiet first ∧
      (d.authorize headers).run.Took n first (.done (.ok who)) ∧
      (next (some who)).Took n rest (.done response)) ∨ Quiet acts := by
  obtain ⟨result, first, rest, rfl, hauth, hrest⟩ := took_bind h
  have hfirst := (d.mild_authorize headers).unchanging.quiet hauth
  rcases result with r | who
  · right
    cases r with
    | expired =>
      obtain ⟨time, _, last, rfl, hlast⟩ := took_ask hrest
      obtain ⟨rfl, -⟩ := took_done hlast
      exact hfirst.append ⟨rfl, rfl, rfl⟩
    | _ => exact hfirst.append (quiet_refuse hrest)
  · exact .inl ⟨who, first, rest, rfl, hfirst, hauth, hrest⟩

theorem took_role_cases {r : Role} {who : Identity}
    (h : ((role r).guard d headers next (some who)).Took n acts (.done response)) :
    (next (some who)).Took n acts (.done response) ∨ (response.status ≠ 200 ∧ Quiet acts) := by
  dsimp only [guard] at h
  split at h
  · exact .inl h
  · obtain ⟨_, first, rest, rfl, hnote, hrest⟩ := took_bind h
    rw [took_refuse hrest]
    have hfirst : Quiet first := Only.quiet (only_perform (not_or.mpr ⟨id, id⟩)) hnote
    exact .inr ⟨status_response_ne _, hfirst.append (quiet_refuse hrest)⟩

end Gate

namespace Deployment

open Program

variable {d : Deployment} {n : Nat} {acts : List Act} {req : Http.Request}
  {response : Http.Response} {route : Route}

theorem elim_route {other : Route} {P : Prop}
    (hroute : Route.ofPath? (Http.pathOf req.target) = some route) (hne : route ≠ other)
    (hother : Route.ofPath? (Http.pathOf req.target) = some other) : P :=
  absurd (Option.some.inj (hroute.symm.trans hother)) hne

theorem took_answer (hroute : Route.ofPath? (Http.pathOf req.target) = some route)
    (h : (d.serve req).Took n acts (.done response)) : ∃ whole,
      (d.answer req route).Took n acts (.done whole) ∧ response = dropBody req.method whole := by
  rw [serve, hroute] at h
  obtain ⟨whole, first, rest, rfl, hanswer, hrest⟩ := took_bind h
  obtain ⟨rfl, rfl⟩ := took_done hrest
  exact ⟨whole, by simpa using hanswer, rfl⟩

theorem unchanging_stack {handler : Handler}
    (h : ∀ who, (handler who).Only fun op => ¬ op.IsChange) (gates : List Gate) :
    (Gate.stack d req.headers gates handler none).Only fun op => ¬ op.IsChange :=
  Gate.only_stack (not_or.mpr ⟨id, id⟩) (fun _ => not_or.mpr ⟨id, id⟩)
    (fun _ => not_or.mpr ⟨id, id⟩) d req.headers gates h none

theorem quiet_of_not_mem (hmethod : req.method ∉ route.methods)
    (h : (d.answer req route).Took n acts (.done response)) : Quiet acts := by
  rw [answer, if_neg hmethod] at h
  have hempty : ∀ _ : Option Identity,
      (pure (.empty 405) : Program Effect Http.Response).Only fun op => ¬ op.IsChange :=
    fun _ => trivial
  refine Only.quiet ?_ h
  exact only_bind (unchanging_stack hempty route.gates) fun _ => trivial

theorem not_logsOut_of_not_mem (h : ∀ id, id ∉ deleted acts) (who : Identity) :
    ¬ d.LogsOut req n acts who :=
  fun hwho => h _ hwho.deleted

theorem announces_of_quiet (hquiet : Quiet acts)
    (hlogin : Route.ofPath? (Http.pathOf req.target) = some .login → response.status ≠ 200)
    (hrevoke : ∀ part, Route.ofPath? (Http.pathOf req.target) = some (.revoke part) →
      req.method = "DELETE" → response.status ≠ 200) :
    d.Announces req n acts response (published acts) := by
  rw [hquiet.published]
  refine .nothing hlogin (not_logsOut_of_not_mem fun id => ?_) hrevoke
  rw [hquiet.deleted]
  exact List.not_mem_nil

theorem announces_login (hroute : Route.ofPath? (Http.pathOf req.target) = some .login)
    (h : (d.serve req).Took n acts (.done response)) :
    d.Announces req n acts response (published acts) := by
  have hrevoke : ∀ part, Route.ofPath? (Http.pathOf req.target) = some (.revoke part) →
      req.method = "DELETE" → response.status ≠ 200 :=
    fun part => elim_route hroute (by simp)
  obtain ⟨whole, hanswer, rfl⟩ := took_answer hroute h
  by_cases hmethod : req.method ∈ Route.login.methods
  · have hpost : req.method = "POST" := List.mem_singleton.mp hmethod
    have hwhole : dropBody req.method whole = whole := by
      rw [hpost]
      exact dropBody_of_ne (by decide) (by decide)
    rw [hwhole] at hrevoke ⊢
    rw [answer_of_mem hmethod] at hanswer
    rcases took_answerLogin_cases hanswer with ⟨l, id, rfl, hopens, hpublished⟩ | ⟨hstatus, hnone⟩
    · rw [hpublished]
      exact .login l id hroute rfl rfl hopens
    · rw [hnone]
      exact .nothing (fun _ => hstatus) (fun who hwho => elim_route hroute (by simp) hwho.route)
        hrevoke
  · have hstatus : (dropBody req.method whole).status ≠ 200 := by
      rw [status_dropBody]
      rw [answer, if_neg hmethod] at hanswer
      obtain ⟨empty, first, rest, -, hempty, hrest⟩ := took_bind hanswer
      obtain ⟨-, rfl⟩ := took_done (a := (Http.Response.empty 405)) hempty
      obtain ⟨-, rfl⟩ := took_done hrest
      decide
    exact announces_of_quiet (quiet_of_not_mem hmethod hanswer) (fun _ => hstatus) hrevoke

theorem announces_logout (hroute : Route.ofPath? (Http.pathOf req.target) = some .logout)
    (h : (d.serve req).Took n acts (.done response)) :
    d.Announces req n acts response (published acts) := by
  have hlogin : Route.ofPath? (Http.pathOf req.target) = some .login → response.status ≠ 200 :=
    elim_route hroute (by simp)
  have hrevoke : ∀ part, Route.ofPath? (Http.pathOf req.target) = some (.revoke part) →
      req.method = "DELETE" → response.status ≠ 200 :=
    fun part => elim_route hroute (by simp)
  obtain ⟨whole, hanswer, rfl⟩ := took_answer hroute h
  by_cases hmethod : req.method ∈ Route.logout.methods
  · rw [answer_of_mem hmethod] at hanswer
    rcases Gate.took_logout_cases hanswer with ⟨who, first, rest, rfl, hquiet, hauth, hrest⟩ | hquiet
    · rw [hquiet.published_left]
      rcases took_answerLogout_cases hrest with ⟨hended, hevent⟩ | ⟨hended, hevent⟩
      · rw [hevent]
        refine .logout who ⟨hroute, List.mem_singleton.mp hmethod, ⟨first, rest, rfl, hauth⟩, ?_⟩
        rw [hquiet.deleted_left, hended]
        exact List.mem_singleton.mpr rfl
      · rw [hevent]
        refine .nothing hlogin (not_logsOut_of_not_mem fun id => ?_) hrevoke
        rw [hquiet.deleted_left, hended]
        exact List.not_mem_nil
    · exact announces_of_quiet hquiet hlogin hrevoke
  · exact announces_of_quiet (quiet_of_not_mem hmethod hanswer) hlogin hrevoke

theorem announces_revoke {part : String}
    (hroute : Route.ofPath? (Http.pathOf req.target) = some (.revoke part))
    (h : (d.serve req).Took n acts (.done response)) :
    d.Announces req n acts response (published acts) := by
  have hlogin : Route.ofPath? (Http.pathOf req.target) = some .login → response.status ≠ 200 :=
    elim_route hroute (by simp)
  have hlogout : ∀ who, ¬ d.LogsOut req n acts who :=
    fun who hwho => elim_route hroute (by simp) hwho.route
  obtain ⟨whole, hanswer, rfl⟩ := took_answer hroute h
  rw [status_dropBody] at hlogin
  have hfails : whole.status ≠ 200 → published acts = [] →
      d.Announces req n acts (dropBody req.method whole) (published acts) := by
    intro hstatus hnone
    rw [hnone]
    rw [← status_dropBody req.method] at hstatus
    exact .nothing (fun _ => hstatus) hlogout fun _ _ _ => hstatus
  by_cases hmethod : req.method ∈ (Route.revoke part).methods
  · have hdelete : req.method = "DELETE" := List.mem_singleton.mp hmethod
    rw [answer_of_mem hmethod] at hanswer
    rcases Gate.took_session_cases hanswer with
      ⟨who, first, rest, rfl, hquiet, hauth, hrest⟩ | ⟨hstatus, hquiet⟩
    · rw [hquiet.published_left] at hfails ⊢
      rcases Gate.took_role_cases hrest with hrest | ⟨hstatus, hquiet⟩
      · rcases took_answerRevoke_cases hrest with ⟨id, hid, hstatus, hevent⟩ | ⟨hstatus, hnone⟩
        · rw [hevent]
          rw [← status_dropBody req.method] at hstatus
          exact .revoke part id who hroute hdelete hstatus hid ⟨first, rest, rfl, hauth⟩
        · exact hfails hstatus hnone
      · exact hfails hstatus hquiet.published
    · exact hfails hstatus hquiet.published
  · refine announces_of_quiet (quiet_of_not_mem hmethod hanswer) ?_ ?_
    · rwa [status_dropBody]
    · intro part' _ hdelete
      exact absurd (List.mem_singleton.mpr hdelete) hmethod

theorem quiet_of_expired {first rest : List Act} {q : Program Effect Http.Response}
    (hroute : Route.ofPath? (Http.pathOf req.target) = some .logout)
    (hauth : (d.authorize req.headers).run.Took n first (.done (.error .expired)))
    (h : (d.serve req).Took n (first ++ rest) q) : Quiet (first ++ rest) := by
  obtain ⟨handler, q', hstack, -⟩ := took_stack hroute h
  have hrest := took_bind_rest hauth hstack
  have hnotes : (perform (.note .expiredLogout) >>= fun _ =>
      pure (.json 200 (envelope (.text logoutMessage)).write) : Program Effect Http.Response).Only
        fun op => ¬ op.IsChange :=
    only_bind (only_perform (not_or.mpr ⟨id, id⟩)) fun _ => trivial
  exact ((d.mild_authorize req.headers).unchanging.quiet hauth).append (hnotes.quiet hrest)

/-- What is published is what the answer and the operations of the request call for. -/
theorem announces_of_took (h : (d.serve req).Took n acts (.done response)) :
    d.Announces req n acts response (published acts) := by
  cases hroute : Route.ofPath? (Http.pathOf req.target) with
  | none =>
    have hserve := h
    rw [serve, hroute] at hserve
    obtain ⟨rfl, -⟩ := took_done hserve
    refine announces_of_quiet ⟨rfl, rfl, rfl⟩ ?_ ?_ <;> simp [hroute]
  | some route =>
    have hother : (∀ who, (d.handler req route who).Only fun op => ¬ op.IsChange) →
        route ≠ .login → (∀ part, route ≠ .revoke part) →
          d.Announces req n acts response (published acts) := by
      intro hhandler hlogin hrevoke
      obtain ⟨whole, hanswer, -⟩ := took_answer hroute h
      have hquiet : Quiet acts := by
        by_cases hmethod : req.method ∈ route.methods
        · rw [answer_of_mem hmethod] at hanswer
          exact (unchanging_stack hhandler route.gates).quiet hanswer
        · exact quiet_of_not_mem hmethod hanswer
      exact announces_of_quiet hquiet (elim_route hroute hlogin) fun part =>
        elim_route hroute (hrevoke part)
    cases route with
    | login => exact announces_login hroute h
    | logout => exact announces_logout hroute h
    | revoke part => exact announces_revoke hroute h
    | health | keys => exact hother (fun _ => trivial) (by simp) (by simp)
    | profile | subscription =>
      refine hother (fun who => ?_) (by simp) (by simp)
      cases who with
      | none => exact only_refuse (fun _ => not_or.mpr ⟨id, id⟩) _
      | some who => trivial

end Deployment

end SessionGate
