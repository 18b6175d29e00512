import SessionGate.Proofs.Service.Frame
import SessionGate.Proofs.Token.Bearer

/-!
Stacks of gates. Each gate either lets a request pass with an identity or ends it, whatever would come
next, and so does a whole stack: it leads to the handler or to an answer of its own. Which of the two,
and as whom, is up to the order of the gates and to the store; the claims of a token name a session
and nothing else.
-/

namespace SessionGate

theorem World.SameSessions.read {w v : World} (h : w.SameSessions v) (id : String) :
    (v.read id).1 = (w.read id).1 := by
  have hlive : v.store.live? v.clock id = w.store.live? w.clock id := by
    rw [h.clock, h.live w.clock (Int.le_refl _)]
  simp only [World.read, h.faults, Session.Store.read, hlive]
  cases w.faults.read with
  | some fault => rfl
  | none => cases w.store.live? w.clock id <;> rfl

theorem World.sameSessions_note (w : World) (n : Note) :
    w.SameSessions { w with notes := w.notes ++ [n] } :=
  ⟨⟨rfl, rfl, rfl⟩, fun _ _ => rfl⟩

namespace Deployment

variable (d : Deployment) (w : World) (headers : Http.Headers)

/-- Who a request acts as. -/
def actsAs : Except Refusal Identity :=
  (d.claimedAt w.clock headers).bind fun id => d.identityOf id (w.read id).1

theorem runServe_authorize_fst :
    (w.runServe (d.authorize headers)).1 = .ok (d.actsAs w headers) := by
  rw [runServe_authorize, actsAs]
  cases d.claimedAt w.clock headers with
  | error r => rfl
  | ok id =>
    obtain ⟨notes, hresolve⟩ := d.runServe_resolve w id
    exact congrArg Prod.fst hresolve

theorem exists_runServe_authorize : ∃ v, w.SameSessions v ∧
    w.runServe (d.authorize headers) = (.ok (d.actsAs w headers), v) :=
  ⟨_, w.sameSessions_run (d.plain_authorize headers).reads,
    Prod.ext (d.runServe_authorize_fst w headers) rfl⟩

variable {d w headers}

theorem actsAs_of_same {v : World} (h : w.SameSessions v) :
    d.actsAs v headers = d.actsAs w headers := by
  rw [actsAs, actsAs, h.clock]
  exact congrArg _ (funext fun id => by rw [h.read])

/-- Whom a session stands for: whoever its live record describes, or a bare subject where those are
accepted. -/
inductive StandsFor (d : Deployment) (w : World) (id : String) : Identity → Prop
  | record (e : Session.Entry) (r : Session.Record) (hlive : w.store.live? w.clock id = some e)
      (hread : e.value.read = .ok (.record r)) : StandsFor d w id (.ofRecord id r)
  | bare (e : Session.Entry) (text : String) (subject : Int64)
      (hlive : w.store.live? w.clock id = some e) (hvalue : e.value = .scalar text)
      (haccept : d.acceptLegacy = true)
      (hsubject : Text.readInt64 (Text.trim text) = .ok subject) :
      StandsFor d w id (.subjectOnly id subject)

theorem standsFor_of_identityOf {id : String} {who : Identity}
    (h : d.identityOf id (w.read id).1 = .ok who) : w.faults.read = none ∧ StandsFor d w id who := by
  cases hfault : w.faults.read with
  | some fault =>
    simp only [World.read, hfault] at h
    cases fault <;> cases h
  | none =>
    simp only [World.read, hfault, Session.Store.read] at h
    cases hlive : w.store.live? w.clock id with
    | none =>
      rw [hlive] at h
      cases h
    | some e =>
      rw [hlive] at h
      refine ⟨rfl, ?_⟩
      rcases identityOf_eq_ok h with ⟨r, hread, rfl⟩ | ⟨text, subject, hread, haccept, hsubject, rfl⟩
      · exact .record e r hlive hread
      · refine .bare e text subject hlive ?_ haccept hsubject
        -- Only a scalar reads as one: a field map reads as a record or not at all.
        obtain ⟨value, expiry⟩ := e
        cases value with
        | scalar other =>
          obtain rfl : other = text := Session.Stored.scalar.inj (Except.ok.inj hread)
          rfl
        | fields fields =>
          cases fields with
          | nil => cases hread
          | cons field fields =>
            simp only [Session.Value.read] at hread
            cases hfields : Session.Record.ofFields (field :: fields) <;> rw [hfields] at hread <;>
              cases hread

theorem identityOf_of_standsFor {id : String} {who : Identity} (hworks : w.faults.read = none)
    (h : StandsFor d w id who) : d.identityOf id (w.read id).1 = .ok who := by
  cases h with
  | record e r hlive hread =>
    simp only [World.read, hworks, Session.Store.read, hlive, hread]
    rfl
  | bare e text subject hlive hvalue haccept hsubject =>
    simp only [World.read, hworks, Session.Store.read, hlive, hvalue, Session.Value.read, identityOf,
      haccept, legacySubject, hsubject, if_true]

theorem actsAs_eq_ok_iff {who : Identity} : d.actsAs w headers = .ok who ↔
    ∃ id, d.claimedAt w.clock headers = .ok id ∧ w.faults.read = none ∧ StandsFor d w id who := by
  rw [actsAs]
  constructor
  · intro h
    cases hclaim : d.claimedAt w.clock headers with
    | error r =>
      rw [hclaim] at h
      cases h
    | ok id =>
      rw [hclaim] at h
      exact ⟨id, rfl, standsFor_of_identityOf h⟩
  · rintro ⟨id, hclaim, hworks, hstands⟩
    rw [hclaim]
    exact identityOf_of_standsFor hworks hstands

end Deployment

/-- What a program with a place for a handler comes to, whatever the handler does: to the handler, with
what it sees, or else to an answer without it. No session changes on the way. -/
def World.LeadsTo (w : World) (p : Handler → Program Effect Http.Response) :
    Option (Option Identity) → Prop
  | some seen => ∃ v, w.SameSessions v ∧ ∀ handler, w.run (p handler) = v.run (handler seen)
  | none => ∃ answer v, w.SameSessions v ∧ ∀ handler, w.run (p handler) = (.ok answer, v)

theorem World.LeadsTo.unique {w : World} {p : Handler → Program Effect Http.Response}
    {a b : Option (Option Identity)} (ha : w.LeadsTo p a) (hb : w.LeadsTo p b) : a = b := by
  cases a with
  | none =>
    cases b with
    | none => rfl
    | some seen =>
      obtain ⟨answer, v, -, hstop⟩ := ha
      obtain ⟨v', -, hreach⟩ := hb
      exact absurd (fun handler => (hstop handler).symm.trans (hreach handler)) not_forall_handler
  | some seen =>
    cases b with
    | none =>
      obtain ⟨v', -, hreach⟩ := ha
      obtain ⟨answer, v, -, hstop⟩ := hb
      exact absurd (fun handler => (hstop handler).symm.trans (hreach handler)) not_forall_handler
    | some other =>
      obtain ⟨v, -, hreach⟩ := ha
      obtain ⟨v', -, hreach'⟩ := hb
      exact congrArg some (seen_unique fun handler => (hreach handler).symm.trans (hreach' handler))

namespace Gate

/-- The gates that find out who a request acts as. -/
def identifies : Gate → Bool
  | session | logout => true
  | role _ | subscription => false

/-- What a gate asks of the identity that was found before it. -/
def allows (who : Identity) : Gate → Bool
  | session | logout => true
  | role r => who.hasRole r
  | subscription => who.isSubscribed

/-- Every gate that asks something of an identity has a gate before it that finds one. -/
def Grounded (gates : List Gate) : Prop :=
  ∀ before g after, gates = before ++ g :: after → g.identifies = false →
    ∃ first ∈ before, first.identifies

/-- The identity behind a gate, unless the request ends there. -/
def step (found : Except Refusal Identity) (before : Option Identity) : Gate → Option Identity
  | session | logout => found.toOption
  | role r => before.filter (·.hasRole r)
  | subscription => before.filter (·.isSubscribed)

/-- What a handler behind gates sees, unless the request ends at one of them. -/
def through (found : Except Refusal Identity) : List Gate → Option Identity →
    Option (Option Identity)
  | [], seen => some seen
  | g :: gates, before => (g.step found before).bind fun who => through found gates (some who)

variable (d : Deployment) (headers : Http.Headers)

theorem leadsTo_refuse {w v : World} {p : Handler → Program Effect Http.Response} (r : Refusal)
    (hsame : w.SameSessions v) (h : ∀ handler, w.run (p handler) = v.run (refuse r)) :
    w.LeadsTo p none :=
  ⟨r.response, _, hsame.trans (v.sameSessions_run (plain_refuse r).reads),
    fun handler => (h handler).trans (Prod.ext rfl rfl)⟩

theorem leadsTo_note_refuse {w : World} {p : Handler → Program Effect Http.Response} (n : Note)
    (r : Refusal) (h : ∀ handler, p handler = Program.perform (.note n) >>= fun _ => refuse r) :
    w.LeadsTo p none := by
  refine leadsTo_refuse r (w.sameSessions_note n) fun handler => ?_
  rw [h, World.run_bind, World.run_perform]
  rfl

/-- A gate does what its step says. -/
theorem leadsTo_guard (w : World) (before : Option Identity) (g : Gate) :
    w.LeadsTo (fun next => g.guard d headers next before)
      ((g.step (d.actsAs w headers) before).map some) := by
  obtain ⟨v, hsame, hauth⟩ := d.exists_runServe_authorize w headers
  cases g with
  | session =>
    cases hwho : d.actsAs w headers with
    | ok who =>
      refine ⟨v, hsame, ?_⟩
      intro next
      rw [run_session, hauth, hwho]
    | error r =>
      apply leadsTo_refuse r hsame
      intro next
      rw [run_session, hauth, hwho]
  | logout =>
    cases hwho : d.actsAs w headers with
    | ok who =>
      refine ⟨v, hsame, ?_⟩
      intro next
      rw [run_logout, hauth, hwho]
    | error r =>
      by_cases hexpired : r = .expired
      · subst hexpired
        refine ⟨.json 200 (envelope (.text logoutMessage)).write, _,
          hsame.trans (v.sameSessions_note .expiredLogout), ?_⟩
        intro next
        rw [run_logout, hauth, hwho]
      · apply leadsTo_refuse r hsame
        intro next
        rw [run_logout, hauth, hwho]
        cases r <;> first | rfl | exact absurd rfl hexpired
  | role r =>
    cases before with
    | none => exact leadsTo_refuse .noSession (.refl w) fun _ => rfl
    | some who =>
      by_cases hrole : who.hasRole r
      · rw [step, Option.filter_some, if_pos hrole]
        exact ⟨w, .refl w, fun next => congrArg w.run (if_pos hrole)⟩
      · rw [step, Option.filter_some, if_neg hrole]
        exact leadsTo_note_refuse _ _ fun next => if_neg hrole
  | subscription =>
    cases before with
    | none => exact leadsTo_refuse .noSession (.refl w) fun _ => rfl
    | some who =>
      by_cases hactive : who.isSubscribed
      · rw [step, Option.filter_some, if_pos hactive]
        exact ⟨w, .refl w, fun next => congrArg w.run (if_pos hactive)⟩
      · rw [step, Option.filter_some, if_neg hactive]
        exact leadsTo_note_refuse _ _ fun next => if_neg hactive

/-- A stack does what its gates' steps say, one after another. -/
theorem leadsTo_stack (w : World) (gates : List Gate) (before : Option Identity) :
    w.LeadsTo (fun handler => stack d headers gates handler before)
      (through (d.actsAs w headers) gates before) := by
  induction gates generalizing w before with
  | nil => exact ⟨w, .refl w, fun _ => rfl⟩
  | cons g gates ih =>
    have hguard := leadsTo_guard d headers w before g
    rw [through]
    cases hstep : g.step (d.actsAs w headers) before with
    | none =>
      rw [hstep] at hguard
      obtain ⟨answer, v, hsame, hrun⟩ := hguard
      exact ⟨answer, v, hsame, fun handler => hrun _⟩
    | some who =>
      rw [hstep] at hguard
      obtain ⟨v, hsame, hrun⟩ := hguard
      -- The gates that follow find the same store, and so the same identity.
      have hrest := ih v (some who)
      rw [Deployment.actsAs_of_same hsame] at hrest
      rw [Option.bind_some]
      revert hrest
      cases through (d.actsAs w headers) gates (some who) with
      | none =>
        rintro ⟨answer, v', hsame', hrun'⟩
        exact ⟨answer, v', hsame.trans hsame', fun handler => (hrun _).trans (hrun' handler)⟩
      | some seen =>
        rintro ⟨v', hsame', hrun'⟩
        exact ⟨v', hsame.trans hsame', fun handler => (hrun _).trans (hrun' handler)⟩

theorem step_ok_eq_some_iff {who other : Identity} {g : Gate} :
    g.step (.ok who) (some who) = some other ↔ other = who ∧ g.allows who := by
  have hsome : some who = some other ↔ other = who := by rw [Option.some.injEq, eq_comm]
  cases g with
  | session | logout => simpa [step, allows, Except.toOption] using hsome
  | role r | subscription =>
    rw [step, Option.filter_eq_some_iff, hsome]
    constructor <;> rintro ⟨rfl, hallows⟩ <;> exact ⟨rfl, hallows⟩

theorem through_ok {who : Identity} {gates : List Gate} {seen : Option Identity} :
    through (.ok who) gates (some who) = some seen ↔
      seen = some who ∧ ∀ g ∈ gates, g.allows who := by
  induction gates with
  | nil => simp [through, eq_comm (a := some who)]
  | cons g gates ih =>
    rw [through, Option.bind_eq_some_iff, List.forall_mem_cons]
    constructor
    · rintro ⟨other, hstep, hrest⟩
      obtain ⟨rfl, hallows⟩ := step_ok_eq_some_iff.mp hstep
      obtain ⟨rfl, hall⟩ := ih.mp hrest
      exact ⟨rfl, hallows, hall⟩
    · rintro ⟨rfl, hallows, hall⟩
      exact ⟨who, step_ok_eq_some_iff.mpr ⟨rfl, hallows⟩, ih.mpr ⟨rfl, hall⟩⟩

theorem grounded_cons {g : Gate} {gates : List Gate} :
    Grounded (g :: gates) ↔ g.identifies := by
  constructor
  · intro h
    cases hasks : g.identifies with
    | true => rfl
    | false =>
      obtain ⟨first, hfirst, -⟩ := h [] g gates rfl hasks
      exact absurd hfirst List.not_mem_nil
  · intro hg before other after hgates hasks
    cases before with
    | nil =>
      obtain ⟨rfl, -⟩ := List.cons.inj hgates
      rw [hg] at hasks
      cases hasks
    | cons first before =>
      obtain ⟨rfl, -⟩ := List.cons.inj hgates
      exact ⟨g, List.mem_cons_self, hg⟩

theorem step_of_identifies {g : Gate} (hg : g.identifies) (found : Except Refusal Identity)
    (before : Option Identity) : g.step found before = found.toOption := by
  cases g <;> first | rfl | cases hg

theorem step_none {g : Gate} (hg : g.identifies = false) (found : Except Refusal Identity) :
    g.step found none = none := by
  cases g <;> first | rfl | cases hg

theorem allows_of_identifies {g : Gate} (hg : g.identifies) (who : Identity) : g.allows who := by
  cases g <;> first | rfl | cases hg

/-- Through a stack comes nobody without gates, and else whoever was found, if all gates allow it. -/
theorem through_none {found : Except Refusal Identity} {gates : List Gate}
    {seen : Option Identity} : through found gates none = some seen ↔ Grounded gates ∧
      match seen with
      | none => ∀ g ∈ gates, g.identifies = false
      | some who => (∃ g ∈ gates, g.identifies) ∧ found = .ok who ∧ ∀ g ∈ gates, g.allows who := by
  cases gates with
  | nil =>
    have hgrounded : Grounded [] := fun before g after h => by simp at h
    cases seen <;> simp [through, hgrounded]
  | cons g gates =>
    rw [through, grounded_cons]
    by_cases hg : g.identifies
    · rw [step_of_identifies hg]
      cases found with
      | error r => cases seen <;> simp [Except.toOption, hg]
      | ok other =>
        change through (.ok other) gates (some other) = some seen ↔ _
        rw [through_ok]
        cases seen with
        | none => simp [hg]
        | some who =>
          simp only [Option.some.injEq, hg, true_and, Except.ok.injEq]
          constructor
          · rintro ⟨rfl, hall⟩
            exact ⟨⟨g, List.mem_cons_self, hg⟩, rfl,
              List.forall_mem_cons.mpr ⟨allows_of_identifies hg who, hall⟩⟩
          · rintro ⟨-, rfl, hall⟩
            exact ⟨rfl, (List.forall_mem_cons.mp hall).2⟩
    · rw [step_none (Bool.not_eq_true _ ▸ hg)]
      simp [hg]

theorem run_guard_congr {other : Http.Headers} {now : Instant}
    (hclaim : d.claimedAt now headers = d.claimedAt now other) (g : Gate) {next next' : Handler}
    (hnext : ∀ (v : World) who, v.clock = now → v.run (next who) = v.run (next' who))
    {w : World} (hclock : w.clock = now) (before : Option Identity) :
    w.run (g.guard d headers next before) = w.run (g.guard d other next' before) := by
  have hauth : w.runServe (d.authorize headers) = w.runServe (d.authorize other) := by
    rw [Deployment.runServe_authorize, Deployment.runServe_authorize, hclock, hclaim]
  have hlater := (w.sameSessions_run (d.plain_authorize other).reads).clock.trans hclock
  have hlater : (w.runServe (d.authorize other)).2.clock = now := hlater
  cases g with
  | session =>
    rw [run_session, run_session, hauth]
    revert hlater
    obtain ⟨answer, v⟩ := w.runServe (d.authorize other)
    intro hlater
    rcases answer with past | r | who
    · rfl
    · rfl
    · exact hnext v (some who) hlater
  | logout =>
    rw [run_logout, run_logout, hauth]
    revert hlater
    obtain ⟨answer, v⟩ := w.runServe (d.authorize other)
    intro hlater
    rcases answer with past | r | who
    · rfl
    · cases r <;> rfl
    · exact hnext v (some who) hlater
  | role r =>
    cases before with
    | none => rfl
    | some who =>
      dsimp only [guard]
      split
      · exact hnext w (some who) hclock
      · rfl
  | subscription =>
    cases before with
    | none => rfl
    | some who =>
      dsimp only [guard]
      split
      · exact hnext w (some who) hclock
      · rfl

/-- What headers are good for is the session that they claim. -/
theorem run_stack_congr {other : Http.Headers} {now : Instant}
    (hclaim : d.claimedAt now headers = d.claimedAt now other) (gates : List Gate)
    (handler : Handler) {w : World} (hclock : w.clock = now) (before : Option Identity) :
    w.run (stack d headers gates handler before) = w.run (stack d other gates handler before) := by
  induction gates generalizing w before with
  | nil => rfl
  | cons g gates ih =>
    exact run_guard_congr d headers hclaim g (fun v who hv => ih hv who) hclock before

/-- The handler behind a stack of gates is reached, and this is whom it sees. -/
def Reaches (w : World) (gates : List Gate) (seen : Option Identity) : Prop :=
  w.LeadsTo (fun handler => stack d headers gates handler none) (some seen)

/-- A gate of a stack answers in the handler's place. -/
def Stops (w : World) (gates : List Gate) : Prop :=
  w.LeadsTo (fun handler => stack d headers gates handler none) none

/-- What becomes of a request at a stack of gates. The handler is reached if the gates are in an order
that works and the identity that the store gives to the claimed session is allowed by all of them, and
else the request is answered before it. Beyond the session that it names, nothing that a token says
makes a difference. -/
structure Outcome (w : World) (gates : List Gate) : Prop where
  reaches_iff : ∀ seen, Reaches d headers w gates seen ↔ Grounded gates ∧
    match seen with
    | none => ∀ g ∈ gates, g.identifies = false
    | some who => (∃ g ∈ gates, g.identifies) ∧
      (w.runServe (d.authorize headers)).1 = .ok (.ok who) ∧ ∀ g ∈ gates, g.allows who
  reaches_or_stops : (∃ seen, Reaches d headers w gates seen) ∨ Stops d headers w gates
  authorized_iff : ∀ who, (w.runServe (d.authorize headers)).1 = .ok (.ok who) ↔
    ∃ id, d.claimedAt w.clock headers = .ok id ∧ w.faults.read = none ∧ d.StandsFor w id who
  bare_not_allowed : ∀ (id : String) (subject : Int64) (g : Gate), g.identifies = false →
    g.allows (.subjectOnly id subject) = false
  by_session : ∀ other token token' c c', d.assertion? other = d.assertion? headers →
    bearerToken headers = .ok token → bearerToken other = .ok token' →
    d.authority.verify w.clock token = .ok c → d.authority.verify w.clock token' = .ok c' →
    c.session = c'.session → ∀ handler,
      w.run (stack d headers gates handler none) = w.run (stack d other gates handler none)

theorem outcome (w : World) (gates : List Gate) : Outcome d headers w gates where
  reaches_iff seen := by
    have hleads := leadsTo_stack d headers w gates none
    rw [d.runServe_authorize_fst]
    simp only [Except.ok.injEq]
    rw [← through_none]
    constructor
    · intro hreaches
      exact hleads.unique hreaches
    · intro hthrough
      rwa [hthrough] at hleads
  reaches_or_stops := by
    have hleads := leadsTo_stack d headers w gates none
    revert hleads
    cases through (d.actsAs w headers) gates none with
    | none => exact .inr
    | some seen => exact fun hleads => .inl ⟨seen, hleads⟩
  authorized_iff who := by
    rw [d.runServe_authorize_fst, Except.ok.injEq]
    exact Deployment.actsAs_eq_ok_iff
  bare_not_allowed id subject g hasks := by
    cases g with
    | session | logout => cases hasks
    | role r => exact Identity.hasRole_subjectOnly id subject r
    | subscription => exact Identity.isSubscribed_subjectOnly id subject
  by_session other token token' c c' hassertion htoken htoken' hverify hverify' hsession handler := by
    refine run_stack_congr d headers ?_ gates handler rfl none
    rw [Deployment.claimedAt, Deployment.claimedAt, hassertion]
    cases d.assertion? headers with
    | some value => rfl
    | none =>
      dsimp only
      rw [htoken, htoken']
      simp only [Except.bind, hverify, hverify', Except.map, hsession]

end Gate

namespace Sample

def behindGateway : Deployment := { deployment with gatewayHeader := some "x-user" }

def asserting : Http.Headers :=
  [("x-user", Base64.encode Base64.url
    (Json.write (.object [Json.member "Uuid" (.text "first")])).toUTF8.toList)]

def signedIn : World :=
  { world with
    store := Session.Store.empty.insert "first"
      ⟨.fields (Session.Record.ofProfile account.profile).toFields, ⟨86400000000000⟩⟩ }

theorem claimedAt_asserting :
    behindGateway.claimedAt signedIn.clock asserting = .ok "first" := by
  with_unfolding_all rfl

def member : Identity where
  session := "first"
  subject := 7
  role := some .member
  subscription := some .active
  name := some "Ada"
  email := some "ada@example.org"

theorem actsAs_asserting : behindGateway.actsAs signedIn asserting = .ok member := by
  have hmember : member = .ofRecord "first" (Session.Record.ofProfile account.profile).asRead := by
    decide
  have hlive : signedIn.store.live? signedIn.clock "first" =
      some ⟨.fields (Session.Record.ofProfile account.profile).toFields, ⟨86400000000000⟩⟩ := rfl
  rw [Deployment.actsAs_eq_ok_iff, hmember]
  exact ⟨"first", claimedAt_asserting, rfl, .record _ _ hlive (Session.read_toFields _)⟩

/-- Two tokens for one session, made out to different subjects. -/
theorem exists_tokens : ∃ token token' c c',
    bearerToken (Token.bearing token) = .ok token ∧
    bearerToken (Token.bearing token') = .ok token' ∧
    deployment.authority.verify signedIn.clock token = .ok c ∧
    deployment.authority.verify signedIn.clock token' = .ok c' ∧
    c.session = "first" ∧ c'.session = "first" ∧ c.subject = 7 ∧ c'.subject = 8 := by
  let claims := deployment.authority.claims signedIn.clock ⟨86400500000000⟩ "first"
  have hverify : ∀ {subject token}, deployment.authority.tokenOf? (claims subject) = some token →
      deployment.authority.verify signedIn.clock token = .ok (claims subject) := by
    intro subject token htoken
    have hexpiry : 0 ≤ (claims subject).expiresAt.toInt := show (0 : Int) ≤ 86400 by decide
    have hkeys : deployment.authority.keys.Consistent := trivial
    exact (Token.Authority.verify_tokenOf? hkeys htoken rfl rfl hexpiry signedIn.clock).trans rfl
  obtain ⟨token, htoken⟩ := Token.Authority.exists_tokenOf? (a := deployment.authority) rfl (claims 7)
  obtain ⟨token', htoken'⟩ :=
    Token.Authority.exists_tokenOf? (a := deployment.authority) rfl (claims 8)
  exact ⟨token, token', claims 7, claims 8, Token.bearerToken_bearing htoken,
    Token.bearerToken_bearing htoken', hverify htoken, hverify htoken', rfl, rfl, rfl, rfl⟩

end Sample

theorem Gate.outcome_sample :
    Reaches Sample.behindGateway Sample.asserting Sample.signedIn
        [.session, .role .member, .subscription, .logout] (some Sample.member) ∧
      Stops Sample.behindGateway Sample.asserting Sample.signedIn [.role .member, .session] ∧
      ∃ token token', token ≠ token' ∧ ∀ gates handler,
        Sample.signedIn.run (stack Sample.deployment (Token.bearing token) gates handler none) =
          Sample.signedIn.run (stack Sample.deployment (Token.bearing token') gates handler none) := by
  have hwho : (Sample.signedIn.runServe (Sample.behindGateway.authorize Sample.asserting)).1 =
      .ok (.ok Sample.member) := by
    rw [Deployment.runServe_authorize_fst, Sample.actsAs_asserting]
  refine ⟨?_, ?_, ?_⟩
  · apply ((outcome _ _ _ _).reaches_iff _).mpr
    exact ⟨grounded_cons.mpr rfl, ⟨.session, List.mem_cons_self, rfl⟩, hwho, by decide⟩
  · refine (outcome _ _ _ _).reaches_or_stops.resolve_left ?_
    rintro ⟨seen, hreaches⟩
    have hgrounded := (((outcome _ _ _ _).reaches_iff _).mp hreaches).1
    exact Bool.false_ne_true (grounded_cons.mp hgrounded)
  · obtain ⟨token, token', c, c', htoken, htoken', hverify, hverify', hc, hc', hseven, height⟩ :=
      Sample.exists_tokens
    refine ⟨token, token', ?_, ?_⟩
    · rintro rfl
      obtain rfl := Except.ok.inj (hverify.symm.trans hverify')
      exact absurd (hseven.symm.trans height) (by decide)
    · intro gates handler
      exact (outcome Sample.deployment (Token.bearing token) Sample.signedIn gates).by_session
        (Token.bearing token') token token' c c' rfl htoken htoken' hverify hverify'
        (hc.trans hc'.symm) handler

end SessionGate
