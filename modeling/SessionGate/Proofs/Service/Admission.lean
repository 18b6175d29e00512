import SessionGate.Proofs.Service.Frame
import SessionGate.Proofs.Setup.Keys

/-!
What a session gate makes of the token that a login gave out. Two checks stand behind one another:
the token's window, in whole seconds with leeway, and the stored record's expiry, to the nanosecond.
`GoodLogin.authorize_token` puts them together.
-/

namespace SessionGate

/-- A deployment that goes by tokens: its keys belong together, as set-up leaves them, its leeway is
not against the client, and it trusts no assertion of a gateway. -/
structure Deployment.GoesByToken (d : Deployment) : Prop where
  consistent : d.authority.keys.Consistent
  leeway_nonneg : 0 ≤ d.authority.leeway
  gatewayHeader_eq : d.gatewayHeader = none

theorem Sample.goesByToken : Sample.deployment.GoesByToken := ⟨trivial, Int.le_refl 0, rfl⟩

namespace GoodLogin

variable {d : Deployment} {c : Credentials} {time now : Instant}

def claims (g : GoodLogin d c time) : Token.Claims :=
  d.authority.claims time g.expiry (Token.sessionId g.number) g.account.id

theorem session_claims (g : GoodLogin d c time) : g.claims.session = g.issued.session :=
  g.session_eq.symm

theorem seconds_expiresAt (g : GoodLogin d c time) :
    g.issued.expiresAt.seconds = time.seconds + 86400 := by
  have hend : g.issued.expiresAt.nanos = time.floor.nanos + 86400 * 1000000000 := g.expiresAt_nanos
  rw [Instant.seconds_eq, Instant.seconds_eq, hend, Instant.floor_nanos]
  omega

/-- A token runs out a second late: the second in which its session ends still counts. -/
theorem expired_iff (g : GoodLogin d c time) (leeway : Int) :
    g.issued.expiresAt.seconds + leeway < now.seconds ↔
      g.issued.expiresAt.nanos + (leeway + 1) * second ≤ now.nanos := by
  have hend : g.issued.expiresAt.nanos = time.floor.nanos + 86400 * 1000000000 := g.expiresAt_nanos
  have hsecond : second = 1000000000 := rfl
  rw [Instant.floor_nanos] at hend
  rw [Instant.seconds_eq, Instant.seconds_eq, hsecond]
  omega

theorem not_expired (g : GoodLogin d c time) {leeway : Int} (hleeway : 0 ≤ leeway)
    (hlive : now < g.issued.expiresAt) : ¬ g.issued.expiresAt.seconds + leeway < now.seconds := by
  have hle : now.seconds ≤ g.issued.expiresAt.seconds :=
    Int.ediv_le_ediv (by decide) (Int.le_of_lt hlive)
  omega

/-- The times in a token are whole seconds that sixty-four bits hold. -/
theorem toInt_claims (g : GoodLogin d c time) (htime : 0 ≤ time.nanos) :
    g.claims.issuedAt.toInt = time.seconds ∧
      g.claims.expiresAt.toInt = g.issued.expiresAt.seconds := by
  have hnonneg : 0 ≤ g.expiry.nanos := by
    have hexpiry := g.expiry_nanos
    omega
  rw [g.seconds_expiresAt]
  exact Token.Authority.toInt_claims g.expiry_eq hnonneg _ _

theorem toInt_lastSecond (g : GoodLogin d c time) (htime : 0 ≤ time.nanos) :
    (d.authority.lastSecond g.claims).toInt = g.issued.expiresAt.seconds + d.authority.leeway := by
  have hnonneg : 0 ≤ g.expiry.nanos := by
    have hexpiry := g.expiry_nanos
    omega
  rw [g.seconds_expiresAt]
  exact Token.Authority.toInt_lastSecond_claims _ g.expiry_eq hnonneg _ _

theorem checkWindow_claims (g : GoodLogin d c time) (htime : 0 ≤ time.nanos)
    (hleeway : 0 ≤ d.authority.leeway) (hnow : time ≤ now) :
    d.authority.checkWindow now g.claims =
      if g.issued.expiresAt.seconds + d.authority.leeway < now.seconds then .error .expired
      else .ok () := by
  obtain ⟨hissued, -⟩ := g.toInt_claims htime
  have hle : time.seconds ≤ now.seconds := Int.ediv_le_ediv (by decide) hnow
  rw [Token.Authority.checkWindow, hissued, g.toInt_lastSecond htime, if_neg (by omega)]

theorem verify_token (g : GoodLogin d c time) (hd : d.GoesByToken)
    (htime : 0 ≤ time.nanos) (hnow : time ≤ now) :
    d.authority.verify now g.issued.token =
      if d.authority.keys.Usable then
        if g.issued.expiresAt.seconds + d.authority.leeway < now.seconds then .error .expired
        else .ok g.claims
      else .error .wrongSignature := by
  have hexpiry : 0 ≤ g.claims.expiresAt.toInt := by
    have hseconds : time.seconds = time.nanos / 1000000000 := rfl
    rw [(g.toInt_claims htime).2, g.seconds_expiresAt]
    omega
  rw [Token.Authority.verify_tokenOf? hd.consistent g.tokenOf?_eq rfl rfl hexpiry]
  change (if _ then (d.authority.checkWindow now g.claims).map (fun _ => g.claims) else _) = _
  rw [g.checkWindow_claims htime hd.leeway_nonneg hnow]
  congr 1
  split <;> rfl

theorem claimedAt_token (g : GoodLogin d c time) (hd : d.GoesByToken) (htime : 0 ≤ time.nanos)
    (hnow : time ≤ now) {headers : Http.Headers} (htoken : bearerToken headers = .ok g.issued.token) :
    d.claimedAt now headers =
      if d.authority.keys.Usable then
        if g.issued.expiresAt.seconds + d.authority.leeway < now.seconds then .error .expired
        else .ok g.issued.session
      else .error .wrongSignature := by
  have hassertion : d.assertion? headers = none := by
    rw [Deployment.assertion?, hd.gatewayHeader_eq]
    rfl
  rw [Deployment.claimedAt, hassertion]
  dsimp only
  rw [htoken]
  change (d.authority.verify now g.issued.token).map Token.Claims.session = _
  rw [g.verify_token hd htime hnow]
  split
  · split
    · rfl
    · exact congrArg Except.ok g.session_claims
  · rfl

/-- Who a login's token stands for, by the moment, and by whether its session is gone already. -/
theorem authorize_token (g : GoodLogin d c time) (hd : d.GoesByToken) (htime : 0 ≤ time.nanos)
    {w : World} (hworks : w.StoreWorks) (hnow : time ≤ w.clock) {gone : Prop} [Decidable gone]
    (hshows : w.Shows g.issued.session
      (if gone then none else some ⟨.fields g.record.toFields, g.issued.expiresAt⟩))
    {headers : Http.Headers} (htoken : bearerToken headers = .ok g.issued.token) :
    (w.runServe (d.authorize headers)).1 = .ok (
      if d.authority.keys.Usable then
        if g.issued.expiresAt.seconds + d.authority.leeway < w.clock.seconds then .error .expired
        else if gone ∨ g.issued.expiresAt ≤ w.clock then .error .noSession
        else .ok (Identity.ofRecord g.issued.session g.record.asRead)
      else .error .wrongSignature) := by
  rw [Deployment.runServe_authorize, g.claimedAt_token hd htime hnow htoken]
  by_cases husable : d.authority.keys.Usable
  · by_cases hexpired : g.issued.expiresAt.seconds + d.authority.leeway < w.clock.seconds
    · simp only [if_pos husable, if_pos hexpired]
    · obtain ⟨notes, hresolve⟩ := d.runServe_resolve w g.issued.session
      simp only [if_pos husable, if_neg hexpired, hresolve]
      by_cases hover : gone ∨ g.issued.expiresAt ≤ w.clock
      · rw [if_pos hover, hshows.identityOf_spent hworks]
        intro entry hentry
        obtain ⟨hkept, hsome⟩ := Option.ite_none_left_eq_some.mp hentry
        obtain rfl := Option.some.inj hsome
        exact hover.resolve_left hkept
      · obtain ⟨hkept, hlive⟩ := not_or.mp hover
        rw [if_neg hkept] at hshows
        rw [if_neg hover, hshows.identityOf_live hworks d (Int.not_le.mp hlive)]
  · simp only [if_neg husable]

end GoodLogin

/-- An answer spells out the token that it gives out. -/
theorem Login.token_eq_of_ok {l l' : Login}
    (h : Deployment.ok l.toJson = Deployment.ok l'.toJson) : l.token = l'.token := by
  have henvelope : envelope l.toJson = envelope l'.toJson :=
    Json.write_inj (congrArg Http.Response.body h)
  simp only [envelope, toJson, Json.member, Json.object.injEq, List.cons.injEq, Prod.mk.injEq,
    true_and, and_true] at henvelope
  exact Option.some.inj (congrArg Json.text? henvelope.1)

/-- The session gate lets a request pass, as somebody, to whatever comes after it. -/
def Gate.Passes (d : Deployment) (w : World) (headers : Http.Headers) (who : Identity) : Prop :=
  ∃ v : World, ∀ next before,
    w.run (session.guard d headers next before) = v.run (next (some who))

theorem Gate.passes_iff {d : Deployment} {w : World} {headers : Http.Headers} {who : Identity} :
    Passes d w headers who ↔ (w.runServe (d.authorize headers)).1 = .ok (.ok who) := by
  constructor
  · rintro ⟨v, h⟩
    have hpass : ∀ next : Handler,
        w.run (session.guard d headers next none) = v.run (next (some who)) := fun next => h next none
    simp only [run_session] at hpass
    revert hpass
    obtain ⟨answer, v'⟩ := w.runServe (d.authorize headers)
    rcases answer with past | r | other
    · exact fun hpass => absurd hpass World.not_forall_handler
    · exact fun hpass => absurd hpass World.not_forall_handler
    · intro hpass
      rw [Option.some.inj (World.seen_unique hpass)]
  · intro h
    exact ⟨_, World.run_guard_of_authorized (.inl rfl) (Prod.ext h rfl)⟩

namespace Deployment

/-- What a logout is answered, by who the request acts as. -/
def logoutAnswer : Except Refusal Identity → Http.Response
  | .ok _ => ok (.text logoutMessage)
  | .error .expired => ok (.text logoutMessage)
  | .error r => r.response

theorem serve_logout {d : Deployment} {w : World} (hworks : w.StoreWorks) {req : Http.Request}
    (hroute : Route.ofPath? (Http.pathOf req.target) = some .logout) (hmethod : req.method = "POST")
    {result : Except Refusal Identity}
    (h : (w.runServe (d.authorize req.headers)).1 = .ok result) :
    (w.serve d req).1 = .ok (logoutAnswer result) := by
  have hsame : w.SameSessions (w.runServe (d.authorize req.headers)).2 :=
    w.sameSessions_run (d.plain_authorize req.headers).reads
  have hgate : d.answer req .logout =
      Gate.logout.guard d req.headers (d.handler req .logout) none :=
    answer_of_mem (by rw [hmethod]; decide)
  have hanswer : (w.run (d.answer req .logout)).1 = .ok (logoutAnswer result) := by
    rw [hgate, Gate.run_logout]
    revert h hsame
    obtain ⟨answer, v⟩ := w.runServe (d.authorize req.headers)
    intro h hsame
    obtain rfl : answer = .ok result := h
    rcases result with r | who
    · cases r <;> rfl
    · obtain ⟨w', hrun, -⟩ := onlyAt_invalidate (hsame.storeWorks hworks) who.session
      have hrun : v.run (invalidate who.session).run = (.ok (.ok ()), w') := hrun
      change (v.run ((invalidate who.session).run >>= _)).1 = _
      rw [World.run_bind, hrun]
      rfl
  rw [serve_answer hroute, hanswer, hmethod]
  exact congrArg Except.ok (dropBody_of_ne (by decide) (by decide))

end Deployment

end SessionGate
