import SessionGate.Proofs.Service.Login
import SessionGate.Proofs.Service.Plain

/-!
Which requests change sessions. A login that succeeds stores one, a logout ends the one it acts as,
and an administrator ends the one that a path names. Every other request, whatever gate or method it
fails at, leaves all live sessions as they are.
-/

namespace SessionGate

/-- The live sessions, now and from now on, are those from before but for one id. -/
structure World.OnlyAt (w w' : World) (id : String) (e : Option Session.Entry) : Prop
    extends w.SameSetting w' where
  shows : w'.Shows id e
  elsewhere : ∀ k, k ≠ id → ∀ later, w.clock ≤ later →
    w'.store.live? later k = w.store.live? later k

namespace World

variable {u v w : World} {id : String} {e : Option Session.Entry}

theorem OnlyAt.of_same (h : u.SameSessions v) (h' : v.OnlyAt w id e) : u.OnlyAt w id e where
  clock := h'.clock.trans h.clock
  faults := h'.faults.trans h.faults
  directory := h'.directory.trans h.directory
  shows := h'.shows
  elsewhere k hk later hlater := by
    rw [h'.elsewhere k hk later (h.clock ▸ hlater), h.live later hlater]

theorem OnlyAt.trans_same (h : u.OnlyAt v id e) (h' : v.SameSessions w) : u.OnlyAt w id e where
  clock := h'.clock.trans h.clock
  faults := h'.faults.trans h.faults
  directory := h'.directory.trans h.directory
  shows later hlater := by
    have hlater : v.clock ≤ later := h'.clock ▸ hlater
    rw [h'.live later hlater, h.shows later hlater]
  elsewhere k hk later hlater := by
    rw [h'.live later (h.clock ▸ hlater), h.elsewhere k hk later hlater]

theorem onlyAt_create (hworks : u.StoreWorks) {r : Session.Record} {lifetime : Nat}
    {expiry : Instant} (hexpiry : Session.Store.expiry u.clock lifetime = .ok expiry)
    (h : u.perform (.create id r lifetime) = (.ok (.ok ()), v)) :
    u.OnlyAt v id (some ⟨.fields r.toFields, expiry⟩) := by
  obtain ⟨expiry', hexpiry', hshows⟩ := shows_create hworks h
  obtain rfl := Except.ok.inj (hexpiry.symm.trans hexpiry')
  rw [perform_create hworks, hexpiry] at h
  obtain ⟨-, rfl⟩ := Prod.mk.inj h
  refine ⟨⟨rfl, rfl, rfl⟩, hshows, fun k hk later _ => ?_⟩
  rw [Session.Store.live?_insert, if_neg hk]

theorem run_guard_of_authorized {d : Deployment} {headers : Http.Headers} {g : Gate}
    (hg : g = .session ∨ g = .logout) {who : Identity}
    (h : u.runServe (d.authorize headers) = (.ok (.ok who), v)) (next : Handler)
    (before : Option Identity) :
    u.run (g.guard d headers next before) = v.run (next (some who)) := by
  rcases hg with rfl | rfl
  · rw [Gate.run_session, h]
  · rw [Gate.run_logout, h]

theorem sameSessions_guard {d : Deployment} {headers : Http.Headers} {g : Gate}
    (hg : g = .session ∨ g = .logout)
    (h : ∀ who, (u.runServe (d.authorize headers)).1 ≠ .ok (.ok who)) (next : Handler)
    (before : Option Identity) : u.SameSessions (u.run (g.guard d headers next before)).2 := by
  have hsame : u.SameSessions (u.runServe (d.authorize headers)).2 :=
    u.sameSessions_run (d.plain_authorize headers).reads
  revert h hsame
  rcases hg with rfl | rfl
  · rw [Gate.run_session]
    obtain ⟨answer, v⟩ := u.runServe (d.authorize headers)
    intro h hsame
    rcases answer with past | r | who
    · exact hsame
    · exact hsame.trans (v.sameSessions_run (plain_refuse r).reads)
    · exact absurd rfl (h who)
  · rw [Gate.run_logout]
    obtain ⟨answer, v⟩ := u.runServe (d.authorize headers)
    intro h hsame
    rcases answer with past | r | who
    · exact hsame
    · cases r with
      | expired => exact hsame.trans ⟨⟨rfl, rfl, rfl⟩, fun _ _ => rfl⟩
      | _ => exact hsame.trans (v.sameSessions_run (plain_refuse _).reads)
    · exact absurd rfl (h who)

end World

/-- The token of a login names the session that is stored for it. -/
theorem GoodLogin.sessionOf?_token {d : Deployment} {c : Credentials} {time : Instant}
    (g : GoodLogin d c time) : Token.sessionOf? g.issued.token = some g.issued.session := by
  rw [Token.Authority.sessionOf?_tokenOf? g.tokenOf?_eq, g.session_eq]
  rfl

namespace Deployment

open Program

variable {d : Deployment} {w : World} {req : Http.Request}

theorem onlyAt_invalidate (hworks : w.StoreWorks) (id : String) :
    ∃ w', w.runServe (invalidate id) = (.ok (.ok ()), w') ∧ w.OnlyAt w' id none := by
  refine ⟨{ w with store := w.store.erase id, notes := w.notes ++ [.invalidated id] }, ?_, ?_⟩
  · rw [invalidate, World.runServe_bind, World.runServe_perform, World.perform_delete hworks]
    rfl
  · refine ⟨⟨rfl, rfl, rfl⟩, fun later _ => ?_, fun k hk later _ => ?_⟩
    · rw [Session.Store.live?_erase, if_pos rfl]
      rfl
    · rw [Session.Store.live?_erase, if_neg hk]

/-- Once a session is ended, what is left to do ends no other. -/
theorem onlyAt_invalidate_bind (hworks : w.StoreWorks) (id : String)
    {f : Except Refusal Unit → Program Effect Http.Response} (hf : ∀ result, (f result).Reads) :
    w.OnlyAt (w.run ((invalidate id).run >>= f)).2 id none := by
  obtain ⟨w', hrun, honly⟩ := onlyAt_invalidate hworks id
  have hrun : w.run (invalidate id).run = (.ok (.ok ()), w') := hrun
  rw [World.run_bind, hrun]
  exact honly.trans_same (w'.sameSessions_run (hf (.ok ())))

theorem onlyAt_answerLogout (hworks : w.StoreWorks) (who : Identity) :
    w.OnlyAt (w.run (answerLogout who)).2 who.session none := by
  apply onlyAt_invalidate_bind hworks
  intro result
  cases result with
  | error r => exact (plain_refuse r).reads
  | ok => exact only_bind (only_perform id) fun _ => trivial

theorem onlyAt_answerRevoke (hworks : w.StoreWorks) (who : Identity) {part id : String}
    (hid : Http.percentDecode? part = some id) :
    w.OnlyAt (w.run (answerRevoke part who)).2 id none := by
  rw [answerRevoke, hid]
  apply onlyAt_invalidate_bind hworks
  intro result
  cases result with
  | error r => exact (plain_refuse r).reads
  | ok =>
    exact only_bind (only_perform fun h => h) fun _ =>
      only_bind (only_perform fun h => h) fun _ => trivial

def LogsIn (req : Http.Request) (answer : Except PastCalendar Http.Response) : Prop :=
  Route.ofPath? (Http.pathOf req.target) = some .login ∧
    ∃ response, answer = .ok response ∧ response.status = 200

/-- What a login leaves behind: one session, named by the token that it answers with, for a day from
the start of the second, with the record of the account whose password was given. -/
def LoginLeaves (w : World) (req : Http.Request) (answer : Except PastCalendar Http.Response)
    (w' : World) : Prop :=
  ∃ (c : Credentials) (account : Account) (l : Login) (id : String),
    readCredentials req = .ok c ∧ w.find c.username = .ok (some account) ∧
    Password.opens c.password account.passwordHash ∧ answer = .ok (ok l.toJson) ∧
    Token.sessionOf? l.token = some id ∧
    l.expiresAt.nanos = w.clock.floor.nanos + Token.lifetime ∧
    w.OnlyAt w' id (some ⟨.fields (Session.Record.ofProfile account.profile).toFields, l.expiresAt⟩)

/-- The session that a request ends: the one it acts as, by logging out, or the one it names, if it
acts as an administrator. -/
inductive Ends (d : Deployment) (w : World) (req : Http.Request) : String → Prop
  | logout (who : Identity) (hroute : Route.ofPath? (Http.pathOf req.target) = some .logout)
      (hmethod : req.method = "POST")
      (hwho : (w.runServe (d.authorize req.headers)).1 = .ok (.ok who)) : Ends d w req who.session
  | revoke (part id : String) (who : Identity)
      (hroute : Route.ofPath? (Http.pathOf req.target) = some (.revoke part))
      (hmethod : req.method = "DELETE") (hid : Http.percentDecode? part = some id)
      (hwho : (w.runServe (d.authorize req.headers)).1 = .ok (.ok who))
      (hadmin : who.hasRole .admin) : Ends d w req id

/-- The request acts as a live session that may end this one: as itself, or as an administrator. -/
def MayEnd (d : Deployment) (w : World) (req : Http.Request) (id : String) : Prop :=
  ∃ who e, (w.runServe (d.authorize req.headers)).1 = .ok (.ok who) ∧
    w.store.live? w.clock who.session = some e ∧ d.identityOf who.session e.value.read = .ok who ∧
    (who.session = id ∨ ∃ r, e.value.read = .ok (.record r) ∧ r.role = .admin)

/-- Only the store makes an identity, and only from a live session. -/
theorem live_of_authorize (hworks : w.StoreWorks) {headers : Http.Headers} {who : Identity}
    (h : (w.runServe (d.authorize headers)).1 = .ok (.ok who)) :
    ∃ e, w.store.live? w.clock who.session = some e ∧
      d.identityOf who.session e.value.read = .ok who := by
  rw [runServe_authorize] at h
  cases hclaim : d.claimedAt w.clock headers with
  | error r =>
    rw [hclaim] at h
    cases h
  | ok id =>
    obtain ⟨notes, hresolve⟩ := d.runServe_resolve w id
    rw [hclaim] at h
    simp only [hresolve, World.read, hworks.read, Session.Store.read] at h
    cases hlive : w.store.live? w.clock id with
    | none =>
      rw [hlive] at h
      cases h
    | some e =>
      rw [hlive] at h
      have hwho : d.identityOf id e.value.read = .ok who := Except.ok.inj h
      obtain rfl := session_of_identityOf hwho
      exact ⟨e, hlive, hwho⟩

/-- Only a record makes an administrator. -/
theorem record_of_admin {who : Identity} {answer : Except Session.StoreFault Session.Stored}
    (h : d.identityOf who.session answer = .ok who) (hadmin : who.hasRole .admin) :
    ∃ r, answer = .ok (.record r) ∧ r.role = .admin := by
  rcases identityOf_eq_ok h with ⟨r, rfl, hwho⟩ | ⟨text, subject, -, -, -, hwho⟩
  · rw [hwho] at hadmin
    exact ⟨r, rfl, Option.some.inj (eq_of_beq hadmin)⟩
  · rw [hwho, Identity.hasRole_subjectOnly] at hadmin
    cases hadmin

theorem mayEnd_of_ends (hworks : w.StoreWorks) {id : String} (h : Ends d w req id) :
    MayEnd d w req id := by
  cases h with
  | logout who hroute hmethod hwho =>
    obtain ⟨e, hlive, hidentity⟩ := live_of_authorize hworks hwho
    exact ⟨who, e, hwho, hlive, hidentity, .inl rfl⟩
  | revoke part id who hroute hmethod hid hwho hadmin =>
    obtain ⟨e, hlive, hidentity⟩ := live_of_authorize hworks hwho
    exact ⟨who, e, hwho, hlive, hidentity, .inr (record_of_admin hidentity hadmin)⟩

theorem reads_keptByPlain : KeptByPlain Program.Reads where
  plain hp := hp.reads
  bind hp hf := only_bind hp.reads hf

/-- The body of an answer does not matter for what is stored. -/
theorem serve_world {r : Route} (hroute : Route.ofPath? (Http.pathOf req.target) = some r) :
    (w.serve d req).2 = (w.run (d.answer req r)).2 := by
  rw [World.serve, serve, hroute]
  change (w.run (d.answer req r >>= _)).2 = _
  rw [World.run_bind]
  obtain ⟨answer, w'⟩ := w.run (d.answer req r)
  cases answer <;> rfl

theorem answer_of_mem {r : Route} (h : req.method ∈ r.methods) :
    d.answer req r = Gate.stack d req.headers r.gates (d.handler req r) none := if_pos h

theorem reads_answer_of_not_mem {r : Route} (h : req.method ∉ r.methods) :
    (d.answer req r).Reads := by
  rw [answer, if_neg h]
  have hempty : ∀ _ : Option Identity,
      (pure (.empty 405) : Program Effect Http.Response).Reads := fun _ => trivial
  exact only_bind (Gate.stack_of reads_keptByPlain d req.headers r.gates hempty none)
    fun _ => trivial

/-- A route whose work neither stores nor deletes leaves every session as it is. -/
theorem reads_answer_of_handler {r : Route} (h : ∀ who, (d.handler req r who).Reads) :
    (d.answer req r).Reads := by
  by_cases hmethod : req.method ∈ r.methods
  · rw [answer_of_mem hmethod]
    exact Gate.stack_of reads_keptByPlain d req.headers r.gates h none
  · exact reads_answer_of_not_mem hmethod

theorem reads_withIdentity {f : Identity → Program Effect Http.Response} (h : ∀ who, (f who).Reads)
    (who : Option Identity) : (withIdentity f who).Reads := by
  cases who with
  | none => exact (plain_refuse _).reads
  | some who => exact h who

theorem sameSessions_serve (hroute : ∀ r, Route.ofPath? (Http.pathOf req.target) = some r →
    (d.answer req r).Reads) : w.SameSessions (w.serve d req).2 := by
  cases h : Route.ofPath? (Http.pathOf req.target) with
  | none =>
    rw [World.serve, serve, h]
    exact .refl w
  | some r =>
    rw [serve_world h]
    exact w.sameSessions_run (hroute r h)

theorem onlyAt_of_ends (hworks : w.StoreWorks) {id : String} (h : Ends d w req id) :
    w.OnlyAt (w.serve d req).2 id none := by
  have hsame := w.sameSessions_run (d.plain_authorize req.headers).reads
  cases h with
  | logout who hroute hmethod hwho =>
    have hauth : w.runServe (d.authorize req.headers) = (.ok (.ok who), _) :=
      Prod.ext hwho rfl
    rw [serve_world hroute, answer_of_mem (by rw [hmethod]; decide)]
    have hpass := World.run_guard_of_authorized (.inr rfl) hauth (d.handler req .logout) none
    refine .of_same hsame ?_
    change World.OnlyAt _ (w.run (Gate.logout.guard d req.headers (d.handler req .logout) none)).2 _ _
    rw [hpass]
    exact onlyAt_answerLogout (hsame.storeWorks hworks) who
  | revoke part id who hroute hmethod hid hwho hadmin =>
    have hauth : w.runServe (d.authorize req.headers) = (.ok (.ok who), _) :=
      Prod.ext hwho rfl
    rw [serve_world hroute, answer_of_mem (by rw [hmethod]; exact List.mem_singleton.mpr rfl)]
    have hpass := World.run_guard_of_authorized (.inl rfl) hauth
      ((Gate.role .admin).guard d req.headers (d.handler req (.revoke part))) none
    have hrole : (Gate.role .admin).guard d req.headers (d.handler req (.revoke part)) (some who) =
        answerRevoke part who := if_pos hadmin
    refine .of_same hsame ?_
    change World.OnlyAt _ (w.run (Gate.session.guard d req.headers
      ((Gate.role .admin).guard d req.headers (d.handler req (.revoke part))) none)).2 _ _
    rw [hpass, hrole]
    exact onlyAt_answerRevoke (hsame.storeWorks hworks) who hid

/-- Work that comes to nothing leaves every session as it is. -/
def FailsCleanly (w : World) (s : Serve α) : Prop :=
  (∀ a, (w.runServe s).1 ≠ .ok (.ok a)) → w.SameSessions (w.runServe s).2

theorem failsCleanly_bind {s : Serve α} {f : α → Serve β} (hs : s.run.Reads)
    (hf : ∀ a v, w.SameSessions v → FailsCleanly v (f a)) : FailsCleanly w (s >>= f) := by
  have hsame : w.SameSessions (w.runServe s).2 := w.sameSessions_run hs
  rw [FailsCleanly, World.runServe_bind]
  revert hsame
  obtain ⟨answer, v⟩ := w.runServe s
  intro hsame hfails
  rcases answer with past | r | a
  · exact hsame
  · exact hsame
  · exact hsame.trans (hf a v hsame hfails)

theorem failsCleanly_bind_pure {s : Serve α} (h : FailsCleanly w s) (f : α → β) :
    FailsCleanly w (s >>= fun a => pure (f a)) := by
  unfold FailsCleanly at h ⊢
  rw [World.runServe_bind]
  revert h
  obtain ⟨answer, v⟩ := w.runServe s
  intro h hfails
  rcases answer with past | r | a
  · exact h fun a ha => by cases ha
  · exact h fun a ha => by cases ha
  · exact absurd rfl (hfails (f a))

theorem failsCleanly_persist (hworks : w.StoreWorks) (profile : Profile) (issued : Token.Issued) :
    FailsCleanly w (persist profile issued) := by
  rw [FailsCleanly, persist, World.runServe_bind, World.runServe_perform]
  dsimp only [World.perform]
  split
  · exact fun _ => .refl w
  · rw [World.runServe_bind, World.runServe_perform, World.perform_create hworks]
    cases Session.Store.expiry w.clock (issued.remaining w.clock).toNat with
    | ok expiry => exact fun hfails => absurd rfl (hfails ())
    | error fault =>
      cases fault with
      | badLifetime => exact fun _ => w.sameSessions_run (plain_note _).reads
      | pastCalendar => exact fun _ => .refl w

theorem reads_createToken (d : Deployment) (subject : Int64) :
    (d.createToken subject).run.Reads :=
  d.only_createToken id id id subject

theorem failsCleanly_login (hworks : w.StoreWorks) (c : Credentials) :
    FailsCleanly w (d.login c) := by
  unfold login
  apply failsCleanly_bind (s := ExceptT.mk _)
  · exact only_bind (plain_authenticate c.username c.password).reads fun _ => trivial
  · intro profile u hu
    apply failsCleanly_bind (d.reads_createToken profile.id)
    intro issued v hv
    exact failsCleanly_bind_pure
      (failsCleanly_persist ((hu.trans hv).storeWorks hworks) profile issued) _

theorem sameSessions_answerLogin (hworks : w.StoreWorks)
    (h : ∀ response, (w.run (d.answerLogin req)).1 = .ok response → response.status ≠ 200) :
    w.SameSessions (w.run (d.answerLogin req)).2 := by
  unfold answerLogin at h ⊢
  cases hread : readCredentials req with
  | error response => exact .refl w
  | ok c =>
    rw [hread] at h
    have hclean := failsCleanly_login (d := d) hworks c
    dsimp only at h ⊢
    rw [World.run_bind] at h ⊢
    unfold FailsCleanly World.runServe at hclean
    revert h hclean
    obtain ⟨answer, v⟩ := w.run (d.login c).run
    intro h hclean
    rcases answer with past | r | l
    · exact hclean fun l hl => by cases hl
    · have hsame := hclean fun l hl => by cases hl
      exact hsame.trans (v.sameSessions_run (plain_refuse r).reads)
    · exact absurd rfl (h _ rfl)

theorem loginLeaves_of_logsIn (hworks : w.StoreWorks) (h : LogsIn req (w.serve d req).1) :
    LoginLeaves w req (w.serve d req).1 (w.serve d req).2 := by
  obtain ⟨hroute, response, hanswer, hstatus⟩ := h
  obtain ⟨acts, htook, hdid⟩ := World.exists_did_of_run 0 (Prod.ext hanswer rfl)
  obtain ⟨c, hread, g, rfl, rfl⟩ := took_serve_login hroute htook hstatus hdid.allAt
  rw [GoodLogin.acts, List.append_assoc] at hdid
  obtain ⟨u, hbefore, hdid⟩ := World.did_append hdid
  obtain ⟨v, hcreate, hafter⟩ := hdid.head
  obtain ⟨_, hfind, -⟩ := hbefore.head
  have hsame : w.SameSessions u := hbefore.sameSessions (by
    simp [GoodLogin.before, Effect.IsWrite])
  have hsame' : v.SameSessions (w.serve d req).2 := hafter.sameSessions (by
    simp [GoodLogin.created, Effect.IsWrite])
  have hstored := World.onlyAt_create (hsame.storeWorks hworks)
    (by rw [hsame.clock]; exact g.store_expiry) hcreate
  exact ⟨c, g.account, g.result, g.issued.session, hread, Except.ok.inj (congrArg Prod.fst hfind),
    g.opens, hanswer, g.sessionOf?_token, g.expiresAt_nanos,
    .of_same hsame (hstored.trans_same hsame')⟩

theorem serve_answer {r : Route} (hroute : Route.ofPath? (Http.pathOf req.target) = some r) :
    (w.serve d req).1 = (w.run (d.answer req r)).1.map (dropBody req.method) := by
  rw [World.serve, serve, hroute]
  change (w.run (d.answer req r >>= _)).1 = _
  rw [World.run_bind]
  obtain ⟨answer, w'⟩ := w.run (d.answer req r)
  cases answer <;> rfl

theorem sameSessions_login (hworks : w.StoreWorks)
    (hroute : Route.ofPath? (Http.pathOf req.target) = some .login)
    (hmethod : req.method ∈ Route.login.methods) (h : ¬ LogsIn req (w.serve d req).1) :
    w.SameSessions (w.run (d.answer req .login)).2 := by
  have hanswer : d.answer req .login = d.answerLogin req := answer_of_mem hmethod
  rw [hanswer]
  apply sameSessions_answerLogin hworks
  intro response hresponse hstatus
  refine h ⟨hroute, dropBody req.method response, ?_, (status_dropBody _ _).trans hstatus⟩
  rw [serve_answer hroute, hanswer, hresponse]
  rfl

theorem sameSessions_logout (hroute : Route.ofPath? (Http.pathOf req.target) = some .logout)
    (hmethod : req.method ∈ Route.logout.methods) (h : ∀ id, ¬ Ends d w req id) :
    w.SameSessions (w.run (d.answer req .logout)).2 := by
  rw [answer_of_mem hmethod]
  refine World.sameSessions_guard (.inr rfl) (fun who hwho => ?_) (d.handler req .logout) none
  exact h who.session (.logout who hroute (List.mem_singleton.mp hmethod) hwho)

theorem sameSessions_revoke {part : String}
    (hroute : Route.ofPath? (Http.pathOf req.target) = some (.revoke part))
    (hmethod : req.method ∈ (Route.revoke part).methods) (h : ∀ id, ¬ Ends d w req id) :
    w.SameSessions (w.run (d.answer req (.revoke part))).2 := by
  rw [answer_of_mem hmethod]
  have hmethod : req.method = "DELETE" := List.mem_singleton.mp hmethod
  by_cases hwho : ∃ who, (w.runServe (d.authorize req.headers)).1 = .ok (.ok who)
  · obtain ⟨who, hwho⟩ := hwho
    have hsame := w.sameSessions_run (d.plain_authorize req.headers).reads
    have hauth : w.runServe (d.authorize req.headers) = (.ok (.ok who), _) := Prod.ext hwho rfl
    have hpass := World.run_guard_of_authorized (.inl rfl) hauth
      ((Gate.role .admin).guard d req.headers (d.handler req (.revoke part))) none
    change w.SameSessions (w.run (Gate.session.guard d req.headers
      ((Gate.role .admin).guard d req.headers (d.handler req (.revoke part))) none)).2
    rw [hpass]
    apply hsame.trans
    apply World.sameSessions_run
    by_cases hadmin : who.hasRole .admin
    · have hrole : (Gate.role .admin).guard d req.headers (d.handler req (.revoke part))
          (some who) = answerRevoke part who := if_pos hadmin
      have hpart : Http.percentDecode? part = none := by
        rw [Option.eq_none_iff_forall_ne_some]
        intro id hid
        exact h id (.revoke part id who hroute hmethod hid hwho hadmin)
      rw [hrole, answerRevoke, hpart]
      exact only_pure _
    · have hrole : (Gate.role .admin).guard d req.headers (d.handler req (.revoke part))
          (some who) = _ := if_neg hadmin
      rw [hrole]
      exact only_bind (only_perform id) fun _ => (plain_refuse _).reads
  · exact World.sameSessions_guard (.inl rfl) (fun who h => hwho ⟨who, h⟩)
      ((Gate.role .admin).guard d req.headers (d.handler req (.revoke part))) none

/-- A request that neither logs in nor ends a session leaves every session as it is. -/
theorem sameSessions_of_not (hworks : w.StoreWorks) (hlogin : ¬ LogsIn req (w.serve d req).1)
    (hends : ∀ id, ¬ Ends d w req id) : w.SameSessions (w.serve d req).2 := by
  cases hroute : Route.ofPath? (Http.pathOf req.target) with
  | none =>
    apply sameSessions_serve
    intro r h
    rw [hroute] at h
    cases h
  | some r =>
    rw [serve_world hroute]
    by_cases hmethod : req.method ∈ r.methods
    · cases r with
      | login => exact sameSessions_login hworks hroute hmethod hlogin
      | logout => exact sameSessions_logout hroute hmethod hends
      | revoke part => exact sameSessions_revoke hroute hmethod hends
      | health | keys => exact w.sameSessions_run (reads_answer_of_handler fun _ => only_pure _)
      | profile | subscription =>
        apply w.sameSessions_run
        exact reads_answer_of_handler (reads_withIdentity fun _ => only_pure _)
    · exact w.sameSessions_run (reads_answer_of_not_mem hmethod)

/-- A login takes no session away, not even the one that it may write over. -/
theorem live_of_logsIn (hworks : w.StoreWorks) (h : LogsIn req (w.serve d req).1) {id : String}
    {e : Session.Entry} (hlive : w.store.live? w.clock id = some e) :
    (w.serve d req).2.store.live? w.clock id ≠ none := by
  obtain ⟨c, account, l, other, -, -, -, -, -, hend, honly⟩ := loginLeaves_of_logsIn hworks h
  by_cases hid : id = other
  · subst hid
    have hend : l.expiresAt.nanos = w.clock.floor.nanos + 86400 * 1000000000 := hend
    have hlt : w.clock < l.expiresAt := by
      rw [Instant.floor_nanos] at hend
      rw [Instant.lt_iff]
      omega
    rw [honly.shows w.clock (Int.le_of_eq (congrArg Instant.nanos honly.clock)), Option.filter,
      if_pos (decide_eq_true hlt)]
    exact Option.some_ne_none _
  · rw [honly.elsewhere id hid w.clock (Int.le_refl _), hlive]
    exact Option.some_ne_none e

/-- A live session that is gone after a request was ended by it. -/
theorem ends_of_gone (hworks : w.StoreWorks) {id : String} {e : Session.Entry}
    (hlive : w.store.live? w.clock id = some e)
    (hgone : (w.serve d req).2.store.live? w.clock id = none) : Ends d w req id := by
  by_cases hends : ∃ other, Ends d w req other
  · obtain ⟨other, hother⟩ := hends
    by_cases hid : id = other
    · exact hid ▸ hother
    · have hsame := (onlyAt_of_ends hworks hother).elsewhere id hid w.clock (Int.le_refl _)
      rw [hlive, hgone] at hsame
      cases hsame
  · by_cases hlogin : LogsIn req (w.serve d req).1
    · exact absurd hgone (live_of_logsIn hworks hlogin hlive)
    · have hsame := sameSessions_of_not hworks hlogin fun id h => hends ⟨id, h⟩
      rw [hsame.live w.clock (Int.le_refl _), hlive] at hgone
      cases hgone

/-- Only three kinds of requests change what is live. A login that succeeds stores one session under
the id in its token; a logout ends the session that it acts as, and a revocation the one that it
names; and every other request leaves every session as it is. So whatever ends a live session acts as
that session or as a live administrator. -/
theorem sessions_after_serve (hworks : w.StoreWorks) (d : Deployment) (req : Http.Request) :
    (LogsIn req (w.serve d req).1 →
      LoginLeaves w req (w.serve d req).1 (w.serve d req).2) ∧
    (∀ id, Ends d w req id → w.OnlyAt (w.serve d req).2 id none) ∧
    (¬ LogsIn req (w.serve d req).1 → (∀ id, ¬ Ends d w req id) →
      w.SameSessions (w.serve d req).2) ∧
    (∀ id e, w.store.live? w.clock id = some e →
      (w.serve d req).2.store.live? w.clock id = none → Ends d w req id) ∧
    (∀ id, Ends d w req id → MayEnd d w req id) :=
  ⟨loginLeaves_of_logsIn hworks, fun _ => onlyAt_of_ends hworks, sameSessions_of_not hworks,
    fun _ _ => ends_of_gone hworks, fun _ => mayEnd_of_ends hworks⟩

theorem sessions_after_serve_login : LogsIn Sample.login
      (Sample.world.serve Sample.deployment Sample.login).1 ∧
    LoginLeaves Sample.world Sample.login (Sample.world.serve Sample.deployment Sample.login).1
      (Sample.world.serve Sample.deployment Sample.login).2 := by
  obtain ⟨g, w, -, hserve⟩ := Sample.exists_login
  have hlogs : LogsIn Sample.login (Sample.world.serve Sample.deployment Sample.login).1 :=
    ⟨by decide +kernel, _, congrArg Prod.fst hserve, rfl⟩
  exact ⟨hlogs, (sessions_after_serve Sample.storeWorks_world Sample.deployment Sample.login).1 hlogs⟩

end Deployment

end SessionGate
