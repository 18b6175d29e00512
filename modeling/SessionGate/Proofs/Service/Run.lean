import SessionGate.Service.World

/-!
Running a program step by step: what a run makes of a sequence, and what identifying a request comes
to. `runServe_authorize` reduces a session gate to two pure questions, which session a request claims
and what the store answers about it.
-/

namespace SessionGate

def Program.noting (notes : List Note) (a : α) : Program Effect α :=
  notes.foldr (fun n p => .ask (.note n) fun _ => p) (.done a)

namespace World

theorem run_pure (w : World) (a : α) : w.run (pure a) = (.ok a, w) := rfl

theorem run_ask (w : World) (op : Effect β) (next : β → Program Effect α) :
    w.run (.ask op next) = match w.perform op with
      | (.ok b, w) => w.run (next b)
      | (.error past, w) => (.error past, w) := by
  change (bind (m := ExceptT PastCalendar (StateM World)) (handle op)
    fun b => (next b).run handle) w = _
  simp only [bind, ExceptT.bind, ExceptT.mk, StateT.bind, handle]
  obtain ⟨answer, w'⟩ := w.perform op
  cases answer <;> rfl

theorem run_perform (w : World) (op : Effect β) : w.run (Program.perform op) = w.perform op := by
  rw [Program.perform, run_ask]
  obtain ⟨answer, w'⟩ := w.perform op
  cases answer <;> rfl

theorem run_bind (w : World) (p : Program Effect α) (f : α → Program Effect β) :
    w.run (p >>= f) = match w.run p with
      | (.ok a, w) => w.run (f a)
      | (.error past, w) => (.error past, w) := by
  induction p generalizing w with
  | done a => rfl
  | ask op next ih =>
    change w.run (.ask op fun b => next b >>= f) = _
    rw [run_ask, run_ask]
    obtain ⟨answer, w'⟩ := w.perform op
    cases answer with
    | ok b => exact ih b w'
    | error past => rfl

theorem run_noting (w : World) (notes : List Note) (a : α) :
    w.run (.noting notes a) = (.ok a, { w with notes := w.notes ++ notes }) := by
  induction notes generalizing w with
  | nil => rw [List.append_nil]; rfl
  | cons n notes ih =>
    change w.run (.ask (.note n) fun _ => .noting notes a) = _
    rw [run_ask]
    change World.run _ _ = _
    rw [ih, List.append_assoc]
    rfl

theorem runServe_mk (w : World) (e : Except Refusal α) :
    w.runServe (ExceptT.mk (pure e)) = (.ok e, w) := rfl

theorem runServe_bind (w : World) (s : Serve α) (f : α → Serve β) :
    w.runServe (s >>= f) = match w.runServe s with
      | (.ok (.ok a), w) => w.runServe (f a)
      | (.ok (.error r), w) => (.ok (.error r), w)
      | (.error past, w) => (.error past, w) := by
  change w.run (s.run >>= ExceptT.bindCont f) = _
  rw [run_bind]
  unfold runServe
  obtain ⟨answer, w'⟩ := w.run s.run
  cases answer with
  | ok result => cases result <;> rfl
  | error past => rfl

theorem runServe_perform (w : World) (op : Effect β) :
    w.runServe (Serve.perform op) = match w.perform op with
      | (.ok b, w) => (.ok (.ok b), w)
      | (.error past, w) => (.error past, w) := by
  change w.run (Program.perform op >>= fun b => pure (Except.ok b)) = _
  rw [run_bind, run_perform]
  rfl

end World

namespace Deployment

/-- Who a session is, by what the store answers about it. -/
def identityOf (d : Deployment) (id : String) :
    Except Session.StoreFault Session.Stored → Except Refusal Identity
  | .ok (.record r) => .ok (Identity.ofRecord id r)
  | .ok (.scalar text) =>
    if d.acceptLegacy then match legacySubject text with
      | .ok subject => .ok (Identity.subjectOnly id subject)
      | .error _ => .error (.store (.corrupt (.legacySubject text)))
    else .error .noSession
  | .error .notFound => .error .noSession
  | .error fault => .error (.store fault)

/-- An identity comes from a record, or from a bare subject where those are accepted. -/
theorem identityOf_eq_ok {d : Deployment} {id : String} {who : Identity}
    {answer : Except Session.StoreFault Session.Stored} (h : d.identityOf id answer = .ok who) :
    (∃ r, answer = .ok (.record r) ∧ who = Identity.ofRecord id r) ∨
      ∃ text subject, answer = .ok (.scalar text) ∧ d.acceptLegacy = true ∧
        legacySubject text = .ok subject ∧ who = Identity.subjectOnly id subject := by
  unfold identityOf at h
  split at h
  · next r => exact .inl ⟨r, rfl, (Except.ok.inj h).symm⟩
  · next text =>
    split at h
    · next hlegacy =>
      split at h
      · next subject hsubject =>
        exact .inr ⟨text, subject, rfl, hlegacy, hsubject, (Except.ok.inj h).symm⟩
      · cases h
    · cases h
  · cases h
  · cases h

theorem session_of_identityOf {d : Deployment} {id : String} {who : Identity}
    {answer : Except Session.StoreFault Session.Stored} (h : d.identityOf id answer = .ok who) :
    who.session = id := by
  rcases identityOf_eq_ok h with ⟨r, -, rfl⟩ | ⟨text, subject, -, -, -, rfl⟩ <;> rfl

/-- The session that a request claims at an instant. -/
def claimedAt (d : Deployment) (now : Instant) (headers : Http.Headers) : Except Refusal String :=
  match d.assertion? headers with
  | some value => (Assertion.read value).mapError .malformedAssertion
  | none => (bearerToken headers).bind fun token =>
      (d.authority.verify now token).map Token.Claims.session

theorem runServe_claimedSession (d : Deployment) (w : World) (headers : Http.Headers) :
    w.runServe (d.claimedSession headers) = (.ok (d.claimedAt w.clock headers), w) := by
  unfold claimedSession claimedAt
  cases d.assertion? headers with
  | some value => rfl
  | none =>
    simp only [World.runServe_bind, World.runServe_mk]
    cases bearerToken headers with
    | error r => rfl
    | ok token =>
      simp only [verifyToken, World.runServe_bind, World.runServe_perform, World.perform,
        World.runServe_mk, Except.bind]
      cases d.authority.verify w.clock token <;> rfl

theorem resolve_eq_ask (d : Deployment) (id : String) : ∃ notes : _ → List Note,
    (d.resolve id).run = .ask (.read id) fun answer =>
      .noting (notes answer) (d.identityOf id answer) := by
  let notes : Except Session.StoreFault Session.Stored → List Note
    | .ok (.record _) => []
    | .ok (.scalar text) =>
      if d.acceptLegacy then match legacySubject text with
        | .ok _ => [.legacyResolved id]
        | .error _ => [.legacyCorrupt id]
      else [.legacyRejected id]
    | .error .notFound => []
    | .error fault => [.readFailed id fault]
  refine ⟨notes, congrArg (Program.ask (Effect.read id)) (funext fun answer => ?_)⟩
  rcases answer with fault | stored
  · cases fault <;> rfl
  · cases stored with
    | record r => rfl
    | scalar text =>
      cases hlegacy : d.acceptLegacy with
      | false =>
        simp only [notes, identityOf, hlegacy]
        rfl
      | true =>
        simp only [notes, identityOf, hlegacy, if_true]
        dsimp only [Program.andThen, ExceptT.bindCont, Function.comp]
        cases legacySubject text <;> rfl

theorem runServe_resolve (d : Deployment) (w : World) (id : String) :
    ∃ notes, w.runServe (d.resolve id) =
      (.ok (d.identityOf id (w.read id).1), { (w.read id).2 with notes }) := by
  obtain ⟨notes, h⟩ := d.resolve_eq_ask id
  refine ⟨(w.read id).2.notes ++ notes (w.read id).1, ?_⟩
  rw [World.runServe, h, World.run_ask]
  exact World.run_noting _ _ _

theorem runServe_authorize (d : Deployment) (w : World) (headers : Http.Headers) :
    w.runServe (d.authorize headers) = match d.claimedAt w.clock headers with
      | .ok id => w.runServe (d.resolve id)
      | .error r => (.ok (.error r), w) := by
  rw [authorize, World.runServe_bind, runServe_claimedSession]
  cases d.claimedAt w.clock headers <;> rfl

end Deployment

/-- Handlers that answer by what they see tell apart whom they are given. -/
theorem World.seen_unique {v v' : World} {seen other : Option Identity}
    (h : ∀ handler : Handler, v.run (handler seen) = v'.run (handler other)) : seen = other := by
  let handler : Handler := fun found => pure (.empty (if found = seen then 404 else 405))
  have hsame := congrArg Prod.fst (h handler)
  change Except.ok (Http.Response.empty (if seen = seen then 404 else 405)) =
    Except.ok (Http.Response.empty (if other = seen then 404 else 405)) at hsame
  rw [if_pos rfl] at hsame
  by_cases hother : other = seen
  · exact hother.symm
  · rw [if_neg hother] at hsame
    exact absurd (Except.ok.inj hsame) (by decide)

/-- No one result is what every handler comes to. -/
theorem World.not_forall_handler {v : World} {seen : Option Identity}
    {result : Except PastCalendar Http.Response × World} :
    ¬ ∀ handler : Handler, result = v.run (handler seen) := by
  intro h
  have hsame := congrArg Prod.fst
    ((h fun _ => pure (.empty 404)).symm.trans (h fun _ => pure (.empty 405)))
  exact absurd (Except.ok.inj hsame) (by decide)

namespace Gate

variable (d : Deployment) (w : World) (headers : Http.Headers) (next : Handler)
  (before : Option Identity)

theorem run_session : w.run (session.guard d headers next before) =
    match w.runServe (d.authorize headers) with
    | (.ok (.ok who), v) => v.run (next (some who))
    | (.ok (.error r), v) => v.run (refuse r)
    | (.error past, v) => (.error past, v) := by
  change w.run ((d.authorize headers).run >>= _) = _
  rw [World.run_bind]
  unfold World.runServe
  obtain ⟨answer, v⟩ := w.run (d.authorize headers).run
  rcases answer with past | r | who <;> rfl

theorem run_logout : w.run (logout.guard d headers next before) =
    match w.runServe (d.authorize headers) with
    | (.ok (.ok who), v) => v.run (next (some who))
    | (.ok (.error .expired), v) =>
      (.ok (.json 200 (envelope (.text logoutMessage)).write),
        { v with notes := v.notes ++ [.expiredLogout] })
    | (.ok (.error r), v) => v.run (refuse r)
    | (.error past, v) => (.error past, v) := by
  change w.run ((d.authorize headers).run >>= _) = _
  rw [World.run_bind]
  unfold World.runServe
  obtain ⟨answer, v⟩ := w.run (d.authorize headers).run
  rcases answer with past | r | who
  · rfl
  · cases r <;> rfl
  · rfl

end Gate

end SessionGate
