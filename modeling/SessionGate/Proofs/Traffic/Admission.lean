import SessionGate.Proofs.Service.Admission
import SessionGate.Proofs.Token.Bearer
import SessionGate.Proofs.Traffic.Finality

/-!
A login's token over a run. Whatever else goes on, two things decide what the token opens: whether the
login's own session was deleted, and how late it is.
-/

namespace SessionGate

namespace Traffic

/-- A login in a run. The service starts idle with a store that works, and no session id is given out
twice. The login arrives after some acts, has all its operations done at one instant while others
take their turns, and is answered with success. -/
structure LoginAt (d : Deployment) (s t u : Traffic) (acts more : List Act) (req : Http.Request)
    (time : Instant) (response : Http.Response) : Prop where
  idle : s.requests = []
  storeWorks : s.world.StoreWorks
  earlier : Run d s acts t
  route : Route.ofPath? (Http.pathOf req.target) = some .login
  later : Run d { t with requests := t.requests ++ [d.serve req] } more u
  atOnce : ∀ a ∈ more, a.request = t.requests.length → a.time = time
  answered : u.requests[t.requests.length]? = some (.done response)
  success : response.status = 200
  drawnOnce : (drawn (acts ++ more)).Nodup

/-- A login opened a session: its token names the id, and before some acts a record was stored under
that id. -/
structure Opened (l : Login) (id : String) (n : Nat) (time : Instant) (more after : List Act) :
    Prop where
  named : Token.sessionOf? l.token = some id
  stored : ∃ before r lifetime,
    more = before ++ ⟨n, time, .create id r lifetime, .ok ()⟩ :: after
  expiresAt_eq : l.expiresAt.nanos = time.floor.nanos + Token.lifetime

theorem Opened.deleted_eq_nil {l : Login} {id : String} {n : Nat} {time : Instant}
    {more after : List Act} (h : Opened l id n time more after) (hmore : deleted more = []) :
    deleted after = [] := by
  obtain ⟨before, r, lifetime, rfl⟩ := h.stored
  rw [deleted_append, List.append_eq_nil_iff] at hmore
  exact hmore.2

variable {d : Deployment} {s t u : Traffic} {acts more : List Act} {req : Http.Request}
  {time : Instant} {response : Http.Response}

theorem Step.timely (h : Step d s acts t) : ∀ a ∈ acts, a.Timely := by
  cases h with
  | arrive _ req => exact fun a ha => nomatch ha
  | pass _ clock wall h => exact fun a ha => nomatch ha
  | act _ n op next answer w hn hw =>
    intro a ha
    rw [List.mem_singleton.mp ha]
    exact World.timely_of_perform hw

theorem Run.timely (h : Run d s acts t) : ∀ a ∈ acts, a.Timely := by
  induction h with
  | refl => exact fun a ha => nomatch ha
  | step _ hstep ih =>
    intro a ha
    rcases List.mem_append.mp ha with ha | ha
    · exact ih a ha
    · exact hstep.timely a ha

theorem opened {c : Credentials} (g : GoodLogin d c time) {n : Nat} {before after : List Act}
    (h : more = before ++ g.store n :: after) :
    Opened g.result g.issued.session n time more after where
  named := g.sessionOf?_token
  stored := ⟨before, g.record, g.lifetime, h⟩
  expiresAt_eq := g.expiresAt_nanos

namespace LoginAt

theorem run (h : LoginAt d s t u acts more req time response) : Run d s (acts ++ more) u := by
  have harrive : Step d t [] { t with requests := t.requests ++ [d.serve req] } := .arrive t req
  have hrun : Run d s (acts ++ []) _ := .step h.earlier harrive
  rw [List.append_nil] at hrun
  exact hrun.trans h.later

/-- What the login did, and what its session shows in the end. -/
theorem exists_goodLogin (h : LoginAt d s t u acts more req time response) :
    ∃ (c : Credentials) (g : GoodLogin d c time) (before after : List Act),
      response = Deployment.ok g.result.toJson ∧
      more = before ++ g.store t.requests.length :: after ∧ time ≤ u.world.clock ∧
      u.world.Shows g.issued.session (if g.issued.session ∈ deleted after then none
        else some ⟨.fields g.record.toFields, g.issued.expiresAt⟩) := by
  obtain ⟨q, hq, htook⟩ := h.later.took (n := t.requests.length) List.getElem?_concat_length
  obtain rfl := Option.some.inj (hq.symm.trans h.answered)
  have hat : AllAt time (more.filter (·.request = t.requests.length)) := by
    intro a ha
    obtain ⟨hmem, hrequest⟩ := List.mem_filter.mp ha
    exact ⟨h.atOnce a hmem (of_decide_eq_true hrequest), h.later.timely a hmem⟩
  obtain ⟨c, -, g, rfl, hacts⟩ := Deployment.took_serve_login h.route htook h.success hat
  have hstore : g.store t.requests.length ∈ more.filter (·.request = t.requests.length) := by
    rw [hacts]
    simp [GoodLogin.acts]
  obtain ⟨before, after, rfl⟩ := List.append_of_mem (List.mem_filter.mp hstore).1
  have hrun := h.run
  have hdrawn := h.drawnOnce
  rw [← List.append_assoc] at hrun hdrawn
  obtain ⟨expiry, v, hexpiry, hv, hshows, hafter⟩ := hrun.shows_stored h.storeWorks
  obtain rfl := Except.ok.inj (g.store_expiry.symm.trans hexpiry)
  obtain ⟨x, y, -, hstep, hrest⟩ := hrun.split_act
  refine ⟨c, g, before, after, rfl, rfl, ?_, ?_⟩
  · rw [hstep.perform.1]
    exact Int.le_trans hstep.clock_le hrest.clock_le
  · exact hafter.shows hshows hv (hrun.not_stored_again h.idle hdrawn)

theorem of_serve {w w' : World} (hworks : w.StoreWorks)
    (hroute : Route.ofPath? (Http.pathOf req.target) = some .login)
    (hserve : w.serve d req = (.ok response, w')) (hsuccess : response.status = 200)
    {clock : Instant} (hclock : w.clock ≤ clock) : ∃ more, deleted more = [] ∧
      LoginAt d ⟨w, []⟩ ⟨w, []⟩ ⟨{ w' with clock }, [.done response]⟩ [] more req w.clock
        response := by
  obtain ⟨more, htook, hdid⟩ := World.exists_did_of_run 0 hserve
  obtain ⟨c, -, g, -, rfl⟩ := Deployment.took_serve_login hroute htook hsuccess hdid.allAt
  have hserved : Run d ⟨w, [d.serve req]⟩
      (g.acts 0 ++ [⟨0, w.clock, .publish (.login g.account.id), ()⟩])
      ⟨w', [.done response]⟩ := .of_did (s := ⟨w, [d.serve req]⟩) htook rfl hdid
  have hpass : Step d ⟨w', [.done response]⟩ [] ⟨{ w' with clock }, [.done response]⟩ :=
    .pass _ clock w'.wall (hdid.clock_eq ▸ hclock)
  refine ⟨_, rfl, rfl, hworks, .refl _, hroute, ?_, fun a ha _ => (hdid.allAt a ha).1, rfl,
    hsuccess, ?_⟩
  · simpa using hserved.trans hpass.run
  · exact List.nodup_cons.mpr ⟨List.not_mem_nil, List.nodup_nil⟩

/-- The sample login, looked at whenever. -/
theorem exists_sample :
    ∃ (g : GoodLogin Sample.deployment Sample.credentials Sample.world.clock) (w : World),
      Sample.world.serve Sample.deployment Sample.login =
        (.ok (Deployment.ok g.result.toJson), w) ∧
      ∀ clock, Sample.world.clock ≤ clock → ∃ more, deleted more = [] ∧
        LoginAt Sample.deployment ⟨Sample.world, []⟩ ⟨Sample.world, []⟩
          ⟨{ w with clock }, [.done (Deployment.ok g.result.toJson)]⟩ [] more Sample.login
          Sample.world.clock (Deployment.ok g.result.toJson) := by
  obtain ⟨g, w, -, hserve⟩ := Sample.exists_login
  exact ⟨g, w, hserve, fun clock hclock =>
    of_serve Sample.storeWorks_world (by decide +kernel) hserve rfl hclock⟩

/-- A login's token opens the session gate until its session is deleted or a day is over, counted from
the start of the second of the login, and not a nanosecond longer, whatever the leeway. What the
signing key cannot check again, though, opens nothing at all. -/
theorem admitted_iff (h : LoginAt d s t u acts more req time response) (hd : d.GoesByToken)
    (htime : 0 ≤ time.nanos) : ∃ l id after, response = Deployment.ok l.toJson ∧
      Opened l id t.requests.length time more after ∧
      ∀ headers, bearerToken headers = .ok l.token →
        ((∃ who, Gate.Passes d u.world headers who) ↔
          d.authority.keys.Usable ∧ id ∉ deleted after ∧
            u.world.clock.nanos < time.floor.nanos + Token.lifetime) := by
  obtain ⟨c, g, before, after, hresponse, hmore, hnow, hshows⟩ := h.exists_goodLogin
  refine ⟨g.result, g.issued.session, after, hresponse, opened g hmore, fun headers htoken => ?_⟩
  have hauth := g.authorize_token hd htime (h.run.storeWorks h.storeWorks) hnow hshows htoken
  have hend : g.issued.expiresAt.nanos = time.floor.nanos + Token.lifetime := g.expiresAt_nanos
  simp only [Gate.passes_iff, hauth, ← hend]
  constructor
  · rintro ⟨who, hwho⟩
    split at hwho
    · next husable =>
      split at hwho
      · cases hwho
      · split at hwho
        · cases hwho
        · next hlive =>
          obtain ⟨hkept, hlive⟩ := not_or.mp hlive
          exact ⟨husable, hkept, Int.not_le.mp hlive⟩
    · cases hwho
  · rintro ⟨husable, hkept, hlive⟩
    have hopen : ¬(g.issued.session ∈ deleted after ∨ g.issued.expiresAt ≤ u.world.clock) :=
      not_or.mpr ⟨hkept, Int.not_le.mpr hlive⟩
    rw [if_pos husable, if_neg (g.not_expired hd.leeway_nonneg hlive), if_neg hopen]
    exact ⟨_, rfl⟩

theorem admitted_iff_sample :
    ∃ (g : GoodLogin Sample.deployment Sample.credentials Sample.world.clock) (w : World),
      Sample.world.serve Sample.deployment Sample.login =
        (.ok (Deployment.ok g.result.toJson), w) ∧
      (∃ who, Gate.Passes Sample.deployment { w with clock := ⟨86399999999999⟩ }
        (Token.bearing g.issued.token) who) ∧
      ¬ ∃ who, Gate.Passes Sample.deployment { w with clock := ⟨86400000000000⟩ }
        (Token.bearing g.issued.token) who := by
  obtain ⟨g, w, hserve, hall⟩ := exists_sample
  have htoken := Token.bearerToken_bearing g.tokenOf?_eq
  refine ⟨g, w, hserve, ?_, ?_⟩
  · obtain ⟨more, hdeleted, hlogin⟩ := hall ⟨86399999999999⟩ (by decide)
    obtain ⟨l, id, after, hresponse, hopened, hiff⟩ :=
      hlogin.admitted_iff Sample.goesByToken (by decide)
    rw [← Login.token_eq_of_ok hresponse] at hiff
    have hlive : (86399999999999 : Int) < 86400000000000 := by decide
    refine (hiff _ htoken).mpr ⟨trivial, ?_, hlive⟩
    rw [hopened.deleted_eq_nil hdeleted]
    exact List.not_mem_nil
  · obtain ⟨more, hdeleted, hlogin⟩ := hall ⟨86400000000000⟩ (by decide)
    obtain ⟨l, id, after, hresponse, hopened, hiff⟩ :=
      hlogin.admitted_iff Sample.goesByToken (by decide)
    rw [← Login.token_eq_of_ok hresponse] at hiff
    intro hpasses
    exact Int.lt_irrefl 86400000000000 ((hiff _ htoken).mp hpasses).2.2

/-- A logout with a login's token succeeds while the session lives and once the token has run out, but
not in between: for the leeway and one second more, the token counts and its session is gone. -/
theorem logout_answer (h : LoginAt d s t u acts more req time response) (hd : d.GoesByToken)
    (htime : 0 ≤ time.nanos) : ∃ l id after, response = Deployment.ok l.toJson ∧
      Opened l id t.requests.length time more after ∧
      ∀ out : Http.Request, Route.ofPath? (Http.pathOf out.target) = some .logout →
        out.method = "POST" → bearerToken out.headers = .ok l.token → id ∉ deleted after →
        (u.world.serve d out).1 = .ok (
          if ¬ d.authority.keys.Usable then Refusal.wrongSignature.response
          else if l.expiresAt ≤ u.world.clock ∧
              u.world.clock.nanos < l.expiresAt.nanos + (d.authority.leeway + 1) * second then
            Refusal.noSession.response
          else Deployment.ok (.text logoutMessage)) := by
  obtain ⟨c, g, before, after, hresponse, hmore, hnow, hshows⟩ := h.exists_goodLogin
  refine ⟨g.result, g.issued.session, after, hresponse, opened g hmore, ?_⟩
  intro out hroute hmethod htoken hkept
  have hworks := h.run.storeWorks h.storeWorks
  have hauth := g.authorize_token hd htime hworks hnow hshows htoken
  rw [Deployment.serve_logout hworks hroute hmethod hauth]
  apply congrArg Except.ok
  change _ = if _ then _ else if g.issued.expiresAt ≤ u.world.clock ∧
    u.world.clock.nanos < g.issued.expiresAt.nanos + (d.authority.leeway + 1) * second then _ else _
  by_cases husable : d.authority.keys.Usable
  · rw [if_pos husable, if_neg (not_not_intro husable)]
    by_cases hexpired : g.issued.expiresAt.seconds + d.authority.leeway < u.world.clock.seconds
    · have hlate := (g.expired_iff d.authority.leeway).mp hexpired
      rw [if_pos hexpired, if_neg fun hgap => Int.not_lt.mpr hlate hgap.2]
      rfl
    · have hearly := Int.not_le.mp (mt (g.expired_iff d.authority.leeway).mpr hexpired)
      rw [if_neg hexpired]
      by_cases hover : g.issued.expiresAt ≤ u.world.clock
      · rw [if_pos (.inr hover), if_pos ⟨hover, hearly⟩]
        rfl
      · rw [if_neg (not_or.mpr ⟨hkept, hover⟩), if_neg fun hgap => hover hgap.1]
        rfl
  · rw [if_neg husable, if_pos husable]
    rfl

theorem logout_answer_sample :
    ∃ (g : GoodLogin Sample.deployment Sample.credentials Sample.world.clock) (w : World),
      let out : Http.Request := { method := "POST", target := "/api/auth/logout"
                                  headers := Token.bearing g.issued.token, body := [] }
      Sample.world.serve Sample.deployment Sample.login =
        (.ok (Deployment.ok g.result.toJson), w) ∧
      (World.serve { w with clock := ⟨86399999999999⟩ } Sample.deployment out).1 =
        .ok (Deployment.ok (.text logoutMessage)) ∧
      (World.serve { w with clock := ⟨86400000000000⟩ } Sample.deployment out).1 =
        .ok Refusal.noSession.response ∧
      (World.serve { w with clock := ⟨86401000000000⟩ } Sample.deployment out).1 =
        .ok (Deployment.ok (.text logoutMessage)) := by
  obtain ⟨g, w, hserve, hall⟩ := exists_sample
  have htoken := Token.bearerToken_bearing g.tokenOf?_eq
  have hanswer : ∀ clock, Sample.world.clock ≤ clock →
      (World.serve { w with clock } Sample.deployment
        ⟨"POST", "/api/auth/logout", Token.bearing g.issued.token, []⟩).1 = .ok (
          if 86400000000000 ≤ clock.nanos ∧ clock.nanos < 86401000000000 then
            Refusal.noSession.response
          else Deployment.ok (.text logoutMessage)) := by
    intro clock hclock
    obtain ⟨more, hdeleted, hlogin⟩ := hall clock hclock
    obtain ⟨l, id, after, hresponse, hopened, hanswer⟩ :=
      hlogin.logout_answer Sample.goesByToken (by decide)
    have hend : l.expiresAt = ⟨86400000000000⟩ := congrArg Instant.mk hopened.expiresAt_eq
    rw [← Login.token_eq_of_ok hresponse, hend] at hanswer
    have hroute : Route.ofPath? (Http.pathOf "/api/auth/logout") = some .logout := by
      decide +kernel
    refine (hanswer _ hroute rfl htoken ?_).trans (congrArg Except.ok ?_)
    · rw [hopened.deleted_eq_nil hdeleted]
      exact List.not_mem_nil
    · exact if_neg (not_not_intro trivial)
  exact ⟨g, w, hserve, hanswer _ (by decide), hanswer _ (by decide), hanswer _ (by decide)⟩

end LoginAt

end Traffic

end SessionGate
