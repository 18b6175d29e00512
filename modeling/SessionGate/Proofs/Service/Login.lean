import SessionGate.Api.Route
import SessionGate.Proofs.Clock.Instant
import SessionGate.Proofs.Password.Hash
import SessionGate.Proofs.Service.Trace
import SessionGate.Proofs.Token.Issue

/-!
What a login does when it succeeds, in order: the account is found, the token is issued for a number
that is drawn, and its record is stored for the time that the token has left.
-/

namespace SessionGate

/-- What a login at one instant goes by when it succeeds. -/
structure GoodLogin (d : Deployment) (c : Credentials) (time : Instant) where
  account : Account
  number : BitVec 128
  expiry : Instant
  issued : Token.Issued
  opens : Password.opens c.password account.passwordHash
  expiry_eq : Token.Authority.expiry? time = some expiry
  issue_eq : d.authority.issue time expiry (Token.sessionId number) account.id = .ok issued

namespace GoodLogin

variable {d : Deployment} {c : Credentials} {time : Instant}

def result (g : GoodLogin d c time) : Login where
  token := g.issued.token
  expiresAt := g.issued.expiresAt
  profile := g.account.profile

def record (g : GoodLogin d c time) : Session.Record := .ofProfile g.account.profile

def lifetime (g : GoodLogin d c time) : Nat := (g.issued.remaining time).toNat

def before (g : GoodLogin d c time) (n : Nat) : List Act :=
  [⟨n, time, .find c.username, .ok (some g.account)⟩, ⟨n, time, .now, time⟩,
    ⟨n, time, .draw, g.number⟩, ⟨n, time, .now, time⟩]

def store (g : GoodLogin d c time) (n : Nat) : Act :=
  ⟨n, time, .create g.issued.session g.record g.lifetime, .ok ()⟩

def created (g : GoodLogin d c time) (n : Nat) : Act :=
  ⟨n, time, .note (.created g.issued.session g.account.id), ()⟩

def acts (g : GoodLogin d c time) (n : Nat) : List Act := g.before n ++ [g.store n, g.created n]

theorem session_eq (g : GoodLogin d c time) : g.issued.session = Token.sessionId g.number :=
  (Token.Authority.issue_eq_ok g.issue_eq).2.1

theorem expiresAt_eq (g : GoodLogin d c time) : g.issued.expiresAt = g.expiry.floor :=
  (Token.Authority.issue_eq_ok g.issue_eq).2.2.2

theorem tokenOf?_eq (g : GoodLogin d c time) :
    d.authority.tokenOf? (d.authority.claims time g.expiry (Token.sessionId g.number) g.account.id) =
      some g.issued.token :=
  (Token.Authority.issue_eq_ok g.issue_eq).1

theorem expiry_nanos (g : GoodLogin d c time) :
    g.expiry.nanos = time.nanos + 86400 * 1000000000 :=
  Token.Authority.expiry_nanos g.expiry_eq

/-- A session ends a day after the start of the second that its login began in. -/
theorem expiresAt_nanos (g : GoodLogin d c time) :
    g.issued.expiresAt.nanos = time.floor.nanos + Token.lifetime := by
  have h := g.expiry_nanos
  change _ = _ + 86400 * 1000000000
  rw [g.expiresAt_eq, Instant.floor_nanos, Instant.floor_nanos]
  omega

theorem remaining_eq (g : GoodLogin d c time) :
    g.issued.remaining time = time.floor.nanos + Token.lifetime - time.nanos :=
  congrArg (· - time.nanos) g.expiresAt_nanos

theorem remaining_nonneg (g : GoodLogin d c time) : 0 ≤ g.issued.remaining time := by
  have hleft : g.issued.remaining time = time.floor.nanos + 86400 * 1000000000 - time.nanos :=
    g.remaining_eq
  rw [Instant.floor_nanos] at hleft
  omega

/-- The store takes a record for the time that its token has left, and no longer. -/
theorem store_expiry (g : GoodLogin d c time) :
    Session.Store.expiry time g.lifetime = .ok g.issued.expiresAt := by
  have hleft : g.issued.remaining time = time.floor.nanos + 86400 * 1000000000 - time.nanos :=
    g.remaining_eq
  have hend : g.issued.expiresAt.nanos = time.floor.nanos + 86400 * 1000000000 := g.expiresAt_nanos
  rw [Instant.floor_nanos] at hleft hend
  have hcalendar : g.issued.expiresAt.InCalendar := by
    rw [g.expiresAt_eq]
    exact Instant.inCalendar_floor (Instant.add?_eq_some_iff.mp g.expiry_eq).2
  have hadd : time.add? g.lifetime = some g.issued.expiresAt := by
    rw [Instant.add?_eq_some_iff]
    refine ⟨?_, hcalendar⟩
    rw [lifetime]
    omega
  have hlifetime : ¬(g.lifetime = 0 ∨ Session.Store.longestLifetime < g.lifetime) := by
    rw [lifetime, Session.Store.longestLifetime]
    omega
  rw [Session.Store.expiry, if_neg hlifetime, hadd]

/-- A password that opens the account, and keys that sign, are enough. -/
theorem exists_of_tokenOf? {account : Account} {number : BitVec 128} {expiry : Instant}
    {token : String} (hopens : Password.opens c.password account.passwordHash)
    (hexpiry : Token.Authority.expiry? time = some expiry)
    (htoken : d.authority.tokenOf?
      (d.authority.claims time expiry (Token.sessionId number) account.id) = some token) :
    ∃ g : GoodLogin d c time, g.account = account ∧ g.number = number := by
  have hissue : d.authority.issue time expiry (Token.sessionId number) account.id = .ok
      { token, session := Token.sessionId number, issuedAt := time.floor,
        expiresAt := expiry.floor } := by
    rw [Token.Authority.issue, htoken]
  exact ⟨⟨account, number, expiry, _, hopens, hexpiry, hissue⟩, rfl, rfl⟩

end GoodLogin

namespace Deployment

open Program

variable {d : Deployment} {c : Credentials} {time : Instant} {n : Nat} {acts : List Act}

theorem took_authenticate {username password : String} {p : Profile}
    (h : (authenticate username password).run.Took n acts (.done (.ok p))) :
    ∃ time account, acts = [⟨n, time, .find username, .ok (some account)⟩] ∧
      p = account.profile ∧ Password.opens password account.passwordHash := by
  obtain ⟨found, first, rest, rfl, hfind, hrest⟩ := took_serve_bind h
  obtain ⟨time, rfl⟩ := took_serve_perform hfind
  rcases found with fault | account
  · obtain ⟨-, h⟩ := took_done (a := (Except.error _ : Except Refusal Profile)) hrest
    cases h
  · cases account with
    | none =>
      obtain ⟨_, _, last, -, -, hlast⟩ := took_serve_bind hrest
      obtain ⟨-, h⟩ := took_done (a := (Except.error _ : Except Refusal Profile)) hlast
      cases h
    | some account =>
      dsimp only at hrest
      split at hrest
      · next hopens =>
        obtain ⟨rfl, hp⟩ := took_done (a := (Except.ok _ : Except Refusal Profile)) hrest
        exact ⟨time, account, rfl, (Except.ok.inj hp).symm, hopens⟩
      · obtain ⟨_, _, last, -, -, hlast⟩ := took_serve_bind hrest
        obtain ⟨-, h⟩ := took_done (a := (Except.error _ : Except Refusal Profile)) hlast
        cases h

theorem took_createToken {subject : Int64} {issued : Token.Issued}
    (h : (d.createToken subject).run.Took n acts (.done (.ok issued))) :
    ∃ time now expiry time' number, acts = [⟨n, time, .now, now⟩, ⟨n, time', .draw, number⟩] ∧
      Token.Authority.expiry? now = some expiry ∧
      d.authority.issue now expiry (Token.sessionId number) subject = .ok issued := by
  obtain ⟨now, first, rest, rfl, hnow, hrest⟩ := took_serve_bind h
  obtain ⟨time, rfl⟩ := took_serve_perform hnow
  cases hexpiry : Token.Authority.expiry? now with
  | none =>
    rw [hexpiry] at hrest
    obtain ⟨impossible, -⟩ := took_serve_bind hrest
    cases impossible
  | some expiry =>
    rw [hexpiry] at hrest
    obtain ⟨number, first, last, rfl, hdraw, hlast⟩ := took_serve_bind hrest
    obtain ⟨time', rfl⟩ := took_serve_perform hdraw
    obtain ⟨rfl, hissue⟩ :=
      took_done (a := d.authority.issue now expiry (Token.sessionId number) subject) hlast
    exact ⟨time, now, expiry, time', number, rfl, hexpiry, hissue⟩

theorem took_persist {profile : Profile} {issued : Token.Issued}
    (h : (persist profile issued).run.Took n acts (.done (.ok ()))) :
    ∃ time now time' time'',
      acts = [⟨n, time, .now, now⟩,
        ⟨n, time', .create issued.session (.ofProfile profile) (issued.remaining now).toNat, .ok ()⟩,
        ⟨n, time'', .note (.created issued.session profile.id), ()⟩] := by
  obtain ⟨now, first, rest, rfl, hnow, hrest⟩ := took_serve_bind h
  obtain ⟨time, rfl⟩ := took_serve_perform hnow
  dsimp only at hrest
  split at hrest
  · obtain ⟨_, _, _, -, hfirst, -⟩ := took_serve_bind hrest
    obtain ⟨-, h⟩ := took_done (a := (Except.error _ : Except Refusal PUnit)) hfirst
    cases h
  · obtain ⟨answer, first, last, rfl, hcreate, hlast⟩ := took_serve_bind hrest
    obtain ⟨time', rfl⟩ := took_serve_perform hcreate
    cases answer with
    | error fault =>
      obtain ⟨_, _, _, -, -, hthrow⟩ := took_serve_bind hlast
      obtain ⟨-, h⟩ := took_done (a := (Except.error _ : Except Refusal Unit)) hthrow
      cases h
    | ok =>
      obtain ⟨time'', rfl⟩ := took_serve_perform hlast
      exact ⟨time, now, time', time'', rfl⟩

/-- A login that succeeds, all at one instant, did what a login does. -/
theorem took_login {l : Login} (h : (d.login c).run.Took n acts (.done (.ok l)))
    (hat : AllAt time acts) : ∃ g : GoodLogin d c time, l = g.result ∧ acts = g.acts n := by
  obtain ⟨profile, first, rest, rfl, hchecked, hrest⟩ := took_serve_bind h
  obtain ⟨issued, second, rest, rfl, htoken, hrest⟩ := took_serve_bind hrest
  obtain ⟨_, third, last, rfl, hpersist, hlast⟩ := took_serve_bind hrest
  obtain ⟨rfl, hl⟩ := took_done (a := (Except.ok _ : Except Refusal Login)) hlast
  obtain ⟨result, auth, hidden, rfl, hauth, hhidden⟩ := took_bind hchecked
  obtain ⟨rfl, hresult⟩ := took_done (a := result.mapError d.hideUnknown) hhidden
  cases result with
  | error r => cases hresult
  | ok p =>
    obtain rfl := Except.ok.inj hresult
    obtain ⟨time₁, account, rfl, rfl, hopens⟩ := took_authenticate hauth
    obtain ⟨time₂, now, expiry, time₃, number, rfl, hexpiry, hissue⟩ := took_createToken htoken
    obtain ⟨time₄, now', time₅, time₆, rfl⟩ := took_persist hpersist
    simp only [List.cons_append, List.nil_append, List.append_nil, AllAt, List.forall_mem_cons,
      Act.Timely] at hat
    obtain ⟨⟨rfl, -⟩, ⟨rfl, rfl⟩, ⟨rfl, -⟩, ⟨rfl, rfl⟩, ⟨rfl, -⟩, ⟨rfl, -⟩, -⟩ := hat
    exact ⟨⟨account, number, expiry, issued, hopens, hexpiry, hissue⟩,
      (Except.ok.inj hl).symm, rfl⟩

theorem status_of_readCredentials {req : Http.Request} {response : Http.Response}
    (h : readCredentials req = .error response) : response.status ≠ 200 := by
  unfold readCredentials at h
  dsimp only at h
  split at h
  · rw [← Except.error.inj h]
    decide
  · split at h
    · rw [← Except.error.inj h]
      decide
    · split at h
      · cases h
      all_goals
        rw [← Except.error.inj h]
        decide

theorem took_refuse {r : Refusal} {response : Http.Response}
    (h : (refuse r).Took n acts (.done response)) : response = r.response := by
  obtain ⟨_, _, rest, -, -, hrest⟩ := took_bind h
  exact (took_done hrest).2.symm

theorem status_response_ne (r : Refusal) : r.response.status ≠ 200 := by
  change r.status ≠ 200
  cases r <;> simp [Refusal.status]

theorem runServe_authenticate {w : World} {username password : String} {account : Account}
    (hopens : Password.opens password account.passwordHash)
    (hfind : w.find username = .ok (some account)) :
    w.runServe (authenticate username password) = (.ok (.ok account.profile), w) := by
  unfold authenticate
  simp only [World.runServe_bind, World.runServe_perform, World.perform, hfind, hopens, if_true]
  rfl

theorem runServe_createToken {w : World} (g : GoodLogin d c w.clock)
    (hnumber : w.entropy w.drawn = g.number) : w.runServe (d.createToken g.account.id) =
      (.ok (.ok g.issued), { w with drawn := w.drawn + 1 }) := by
  unfold createToken
  simp only [World.runServe_bind, World.runServe_perform, World.perform, g.expiry_eq, hnumber,
    World.runServe_mk, g.issue_eq]

theorem runServe_persist {w : World} (g : GoodLogin d c w.clock) (hworks : w.StoreWorks) :
    ∃ w', w.runServe (persist g.account.profile g.issued) = (.ok (.ok ()), w') := by
  have hcreate := World.perform_create hworks g.issued.session g.record g.lifetime
  rw [g.store_expiry] at hcreate
  rw [persist, World.runServe_bind, World.runServe_perform]
  dsimp only [World.perform]
  rw [if_neg (Int.not_lt.mpr g.remaining_nonneg), World.runServe_bind, World.runServe_perform]
  unfold GoodLogin.record GoodLogin.lifetime at hcreate
  rw [hcreate]
  exact ⟨_, rfl⟩

theorem runServe_login {w : World} (g : GoodLogin d c w.clock) (hworks : w.StoreWorks)
    (hfind : w.find c.username = .ok (some g.account)) (hnumber : w.entropy w.drawn = g.number) :
    ∃ w', w.runServe (d.login c) = (.ok (.ok g.result), w') := by
  have hworks' : World.StoreWorks { w with drawn := w.drawn + 1 } :=
    ⟨hworks.create, hworks.read, hworks.delete⟩
  obtain ⟨w', hpersist⟩ := runServe_persist (w := { w with drawn := w.drawn + 1 }) g hworks'
  have hchecked : w.runServe (ExceptT.mk do
      return (← (authenticate c.username c.password).run).mapError d.hideUnknown) =
        (.ok (.ok g.account.profile), w) := by
    have hauth : w.run (authenticate c.username c.password).run = _ := runServe_authenticate g.opens hfind
    change w.run ((authenticate c.username c.password).run >>= fun _ => _) = _
    rw [World.run_bind, hauth]
    rfl
  refine ⟨w', ?_⟩
  have htoken : w.runServe (d.createToken g.account.profile.id) = _ :=
    runServe_createToken g hnumber
  rw [login, World.runServe_bind, hchecked]
  dsimp only
  rw [World.runServe_bind, htoken]
  dsimp only
  rw [World.runServe_bind, hpersist]
  rfl

theorem took_answerLogin {req : Http.Request} {response : Http.Response}
    (h : (d.answerLogin req).Took n acts (.done response)) (hstatus : response.status = 200)
    (hat : AllAt time acts) : ∃ c, readCredentials req = .ok c ∧ ∃ g : GoodLogin d c time,
      response = ok g.result.toJson ∧
        acts = g.acts n ++ [⟨n, time, .publish (.login g.account.id), ()⟩] := by
  unfold answerLogin at h
  cases hread : readCredentials req with
  | error refused =>
    rw [hread] at h
    obtain ⟨-, rfl⟩ := took_done h
    exact absurd hstatus (status_of_readCredentials hread)
  | ok c =>
    rw [hread] at h
    obtain ⟨result, first, rest, rfl, hlogin, hrest⟩ := took_bind h
    cases result with
    | error r =>
      rw [took_refuse hrest] at hstatus
      exact absurd hstatus (status_response_ne r)
    | ok l =>
      obtain ⟨g, rfl, rfl⟩ := took_login hlogin hat.of_append.1
      obtain ⟨_, publish, last, rfl, hpublish, hlast⟩ := took_bind hrest
      obtain ⟨rfl, rfl⟩ := took_done hlast
      obtain ⟨time', answer, none, rfl, hnone⟩ := took_ask hpublish
      obtain ⟨rfl, -⟩ := took_done hnone
      obtain rfl : time' = time := (hat.of_append.2 _ List.mem_cons_self).1
      exact ⟨c, rfl, g, rfl, rfl⟩

theorem dropBody_of_ne {method : String} {response : Http.Response} (hhead : method ≠ "HEAD")
    (hconnect : method ≠ "CONNECT") : dropBody method response = response := by
  rw [dropBody, if_neg hhead, if_neg fun h => hconnect h.1]

theorem status_dropBody (method : String) (response : Http.Response) :
    (dropBody method response).status = response.status := by
  unfold dropBody
  split
  · rfl
  · split <;> rfl

/-- A login is answered with success only where it succeeds. -/
theorem took_serve_login {req : Http.Request} {response : Http.Response}
    (hroute : Route.ofPath? (Http.pathOf req.target) = some .login)
    (h : (d.serve req).Took n acts (.done response)) (hstatus : response.status = 200)
    (hat : AllAt time acts) : ∃ c, readCredentials req = .ok c ∧ ∃ g : GoodLogin d c time,
      response = ok g.result.toJson ∧
        acts = g.acts n ++ [⟨n, time, .publish (.login g.account.id), ()⟩] := by
  rw [serve, hroute] at h
  obtain ⟨whole, first, rest, rfl, hanswer, hrest⟩ := took_bind h
  obtain ⟨rfl, rfl⟩ := took_done hrest
  rw [status_dropBody] at hstatus
  rw [List.append_nil] at hat ⊢
  unfold answer at hanswer
  split at hanswer
  · next hmethod =>
    have hpost : req.method = "POST" := List.mem_singleton.mp hmethod
    rw [hpost, dropBody_of_ne (by decide) (by decide)]
    exact took_answerLogin hanswer hstatus hat
  · obtain ⟨empty, first, rest, rfl, hempty, hrest⟩ := took_bind hanswer
    obtain ⟨-, rfl⟩ := took_done (a := (Http.Response.empty 405)) hempty
    obtain ⟨-, rfl⟩ := took_done hrest
    exact absurd hstatus (by decide)

/-- A login that has all it goes by is answered with success. -/
theorem serve_login {w : World} {req : Http.Request} (g : GoodLogin d c w.clock)
    (hroute : Route.ofPath? (Http.pathOf req.target) = some .login) (hmethod : req.method = "POST")
    (hread : readCredentials req = .ok c) (hworks : w.StoreWorks)
    (hfind : w.find c.username = .ok (some g.account)) (hnumber : w.entropy w.drawn = g.number) :
    ∃ w', w.serve d req = (.ok (ok g.result.toJson), w') := by
  obtain ⟨w', hlogin⟩ := runServe_login g hworks hfind hnumber
  have hlogin : w.run (d.login c).run = (.ok (.ok g.result), w') := hlogin
  have hanswer : w.run (d.answer req .login) = w.run (d.answerLogin req) := by
    rw [answer, if_pos (by rw [hmethod]; decide)]
    rfl
  refine ⟨{ w' with events := w'.events ++ [(w'.wall, .login g.account.id)] }, ?_⟩
  rw [World.serve, serve, hroute]
  dsimp only
  rw [World.run_bind, hanswer]
  rw [answerLogin, hread]
  dsimp only
  rw [World.run_bind, hlogin]
  dsimp only
  rw [World.run_bind, World.run_perform]
  dsimp only [World.perform, World.run_pure]
  rw [hmethod, dropBody_of_ne (by decide) (by decide)]
  rfl

end Deployment

namespace Sample

def deployment : Deployment where
  authority := { keys := .shared (List.replicate 32 0x61), issuer := none, audience := none
                 skew := ⟨0, Nat.zero_le _⟩ }
  revealUnknownUsers := false
  acceptLegacy := false
  gatewayHeader := none

def account : Account where
  id := 7
  name := "Ada"
  email := "ada@example.org"
  passwordHash := Password.hash "lovelace" (List.replicate 16 0)
  role := .member
  subscription := .active

def credentials : Credentials := { username := "Ada@example.org", password := "lovelace" }

def login : Http.Request where
  method := "POST"
  target := "/api/auth/login"
  headers := [("content-type", "application/json")]
  body := (Json.write (.array [.text "Ada@example.org", .text "lovelace"])).toUTF8.toList

/-- Nothing is stored, and the clock stands still at half a second. -/
def world : World where
  clock := ⟨500000000⟩
  wall := ⟨0⟩
  entropy _ := 0
  drawn := 0
  store := .empty
  directory := .ofAccounts [account]
  faults := {}
  events := []
  notes := []

theorem storeWorks_world : world.StoreWorks := ⟨rfl, rfl, rfl⟩

theorem readCredentials_login : Deployment.readCredentials login = .ok credentials := by
  with_unfolding_all rfl

theorem find_world : world.find credentials.username = .ok (some account) := by
  change Except.ok ((Directory.empty.insert account).find? credentials.username) = _
  rw [Directory.find?_insert, if_pos (by decide +kernel)]

theorem exists_login : ∃ (g : GoodLogin deployment credentials world.clock) (w : World),
    g.account = account ∧
      world.serve deployment login = (.ok (Deployment.ok g.result.toJson), w) := by
  have hopens : Password.opens credentials.password account.passwordHash :=
    Password.opens_hash "lovelace" rfl
  have hexpiry : Token.Authority.expiry? world.clock = some ⟨86400500000000⟩ := by
    decide +kernel
  obtain ⟨token, htoken⟩ := Token.Authority.exists_tokenOf? (a := deployment.authority) rfl
    (deployment.authority.claims world.clock ⟨86400500000000⟩ (Token.sessionId 0) account.id)
  obtain ⟨g, haccount, hnumber⟩ := GoodLogin.exists_of_tokenOf? hopens hexpiry htoken
  obtain ⟨w, hserve⟩ := Deployment.serve_login g (by decide +kernel) rfl readCredentials_login
    storeWorks_world (haccount ▸ find_world) hnumber.symm
  exact ⟨g, w, haccount, hserve⟩

end Sample

end SessionGate
