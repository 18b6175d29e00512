import Mathlib.Data.List.Forall2
import SessionGate.Proofs.Except
import SessionGate.Proofs.Service.Login
import SessionGate.Proofs.Service.Orderly

/-!
Two programs side by side: they come to the same operations in the same order and to the same result,
while their notes and what they find in the directory may differ. Main statement:
`Deployment.inStep_serve`: requests that differ in a password only go side by side as soon as their
passwords are told alike.
-/

namespace SessionGate

/-- What a directory answers about a user name. -/
abbrev Found := Except DirectoryFault (Option Account)

def Effect.IsFind : {β : Type} → Effect β → Prop
  | _, .find _ => True
  | _, _ => False

namespace Program

inductive InStep (alike : Note → Note → Prop) (found : String → Found → Found → Prop) {α : Type} :
    Program Effect α → Program Effect α → Prop
  | done (a : α) : InStep alike found (.done a) (.done a)
  | note {n n' : Note} {next next' : Unit → Program Effect α} (hn : alike n n')
      (h : InStep alike found (next ()) (next' ())) :
      InStep alike found (.ask (.note n) next) (.ask (.note n') next')
  | find (username : String) {next next' : Found → Program Effect α}
      (h : ∀ f f', found username f f' → InStep alike found (next f) (next' f')) :
      InStep alike found (.ask (.find username) next) (.ask (.find username) next')
  | shared {β : Type} (op : Effect β) (hfind : ¬ op.IsFind) (hnote : ¬ op.IsNote)
      {next next' : β → Program Effect α} (h : ∀ b, InStep alike found (next b) (next' b)) :
      InStep alike found (.ask op next) (.ask op next')

section

variable {alike : Note → Note → Prop} {found : String → Found → Found → Prop}

/-- A program that looks no account up goes beside itself. -/
theorem inStep_self (halike : ∀ n, alike n n) {p : Program Effect α}
    (h : p.Only fun op => ¬ op.IsFind) : p.InStep alike found p := by
  induction p with
  | done a => exact .done a
  | ask op next ih =>
    have hnext := fun b => ih b (h.2 b)
    by_cases hnote : op.IsNote
    · cases op with
      | note n => exact .note (halike n) (hnext ())
      | _ => cases hnote
    · exact .shared op h.1 hnote hnext

theorem InStep.bind {p p' : Program Effect α} {f f' : α → Program Effect β}
    (h : p.InStep alike found p') (hf : ∀ a, (f a).InStep alike found (f' a)) :
    (p >>= f).InStep alike found (p' >>= f') := by
  induction h with
  | done a => exact hf a
  | note hn _ ih => exact .note hn ih
  | find username _ ih => exact .find username ih
  | shared op hfind hnote _ ih => exact .shared op hfind hnote ih

theorem InStep.serve_bind {s s' : Serve α} {f f' : α → Serve β}
    (h : s.run.InStep alike found s'.run) (hf : ∀ a, (f a).run.InStep alike found (f' a).run) :
    (s >>= f).run.InStep alike found (s' >>= f').run := by
  change (s.run >>= ExceptT.bindCont f).InStep alike found (s'.run >>= ExceptT.bindCont f')
  apply h.bind
  rintro (r | a)
  · exact .done _
  · exact hf a

theorem inStep_noting {notes notes' : List Note} (h : List.Forall₂ alike notes notes') (a : α) :
    (noting notes a).InStep alike found (noting notes' a) := by
  induction h with
  | nil => exact .done a
  | cons hn _ ih => exact .note hn ih

theorem noting_bind (notes : List Note) (a : α) (f : α → Program Effect β) :
    noting notes a >>= f = notes.foldr (fun n p => .ask (.note n) fun _ => p) (f a) := by
  induction notes with
  | nil => rfl
  | cons n notes ih => exact congrArg (ask (Effect.note n)) (funext fun _ => ih)

theorem noting_bind_pure (notes : List Note) (a : α) (f : α → β) :
    (noting notes a >>= fun a => pure (f a)) = noting notes (f a) := noting_bind notes a _

end

end Program

/-- What a password comes to against what was found. -/
def Found.checked (password : String) : Found → Except Refusal Profile
  | .error fault => .error (.directory fault)
  | .ok none => .error .unknownUser
  | .ok (some account) =>
    if Password.opens password account.passwordHash then .ok account.profile
    else .error .wrongCredentials

def Found.checkNotes (password : String) : Found → List Note
  | .error _ => []
  | .ok none => [.unknownUser]
  | .ok (some account) =>
    if Password.opens password account.passwordHash then [] else [.passwordMismatch account.id]

/-- Two passwords are told alike, each against what was found for it. -/
structure Found.ToldAlike (alike : Note → Note → Prop) (hide : Refusal → Refusal)
    (password password' : String) (f f' : Found) : Prop where
  result : (f.checked password).mapError hide = (f'.checked password').mapError hide
  notes : List.Forall₂ alike (f.checkNotes password) (f'.checkNotes password')

/-- What is noted of a refusal. -/
def Refusal.note (r : Refusal) : Note := if r.isInternal then .failed r else .rejected r

/-- Requests that differ in a password only: their bodies are the same as soon as the password in
either is left out. -/
structure Http.Request.SameButPassword (req req' : Http.Request) : Prop where
  method : req'.method = req.method
  target : req'.target = req.target
  headers : req'.headers = req.headers
  body : (Deployment.readCredentials req).map Credentials.username =
    (Deployment.readCredentials req').map Credentials.username

namespace Deployment

open Program

theorem authenticate_eq_ask (username password : String) :
    (authenticate username password).run = .ask (.find username) fun f =>
      .noting (Found.checkNotes password f) (Found.checked password f) := by
  refine congrArg (ask (Effect.find username)) (funext fun f => ?_)
  rcases f with fault | _ | account
  · rfl
  · rfl
  · dsimp only [andThen, ExceptT.bindCont, Found.checkNotes, Found.checked, Function.comp]
    split <;> rfl

theorem checked_eq_ask (d : Deployment) (c : Credentials) :
    ((authenticate c.username c.password).run >>= fun result =>
      pure (result.mapError d.hideUnknown)) = .ask (.find c.username) fun f =>
        .noting (Found.checkNotes c.password f)
          ((Found.checked c.password f).mapError d.hideUnknown) := by
  rw [authenticate_eq_ask]
  exact congrArg (ask (Effect.find c.username)) (funext fun f => noting_bind_pure _ _ _)

theorem noting_bind_refuse (notes : List Note) (a : α) {f : α → Program Effect Http.Response}
    {r : Refusal} (h : f a = refuse r) :
    noting notes a >>= f = noting (notes ++ [r.note]) r.response := by
  rw [noting_bind, h, noting, List.foldr_append]
  rfl

/-- A login looks its user name up, and where its credentials are refused there is only that to say. -/
theorem serve_eq_ask {d : Deployment} {req : Http.Request} {c : Credentials}
    (hroute : Route.ofPath? (Http.pathOf req.target) = some .login) (hmethod : req.method = "POST")
    (hread : readCredentials req = .ok c) : ∃ next, d.serve req = .ask (.find c.username) next ∧
      ∀ f r, (Found.checked c.password f).mapError d.hideUnknown = .error r →
        next f = .noting (Found.checkNotes c.password f ++ [r.note]) r.response := by
  have hanswer : d.serve req = do
      return dropBody "POST" (← d.answerLogin req) := by
    rw [serve, hroute]
    dsimp only
    rw [answer, if_pos (by rw [hmethod]; decide), hmethod]
    rfl
  obtain ⟨rest, hlogin⟩ : ∃ rest : Profile → Serve Login, (d.login c).run =
      ((authenticate c.username c.password).run >>= fun result =>
        pure (result.mapError d.hideUnknown)) >>= ExceptT.bindCont rest := ⟨_, rfl⟩
  rw [hanswer, answerLogin, hread]
  dsimp only
  rw [hlogin, checked_eq_ask]
  refine ⟨_, rfl, fun f r hr => ?_⟩
  have hrefused : noting (Found.checkNotes c.password f)
      ((Found.checked c.password f).mapError d.hideUnknown) >>= ExceptT.bindCont rest =
        noting (Found.checkNotes c.password f) (.error r) := by
    rw [hr, noting_bind]
    rfl
  change ((noting _ _ >>= ExceptT.bindCont rest) >>= _) >>= _ = _
  rw [hrefused, noting_bind_refuse (r := r), noting_bind_pure,
    dropBody_of_ne (by decide) (by decide)]
  rfl

variable {alike : Note → Note → Prop} {found : String → Found → Found → Prop} {d : Deployment}
  {c c' : Credentials} {req req' : Http.Request}

theorem inStep_authenticate (husername : c.username = c'.username)
    (h : ∀ f f', found c.username f f' → f.ToldAlike alike id c.password c'.password f') :
    (authenticate c.username c.password).run.InStep alike found
      (authenticate c'.username c'.password).run := by
  rw [authenticate_eq_ask, authenticate_eq_ask, ← husername]
  apply InStep.find
  intro f f' hfound
  have htold := h f f' hfound
  have hresult := htold.result
  rw [Except.mapError_id, Except.mapError_id] at hresult
  rw [hresult]
  exact inStep_noting htold.notes _

theorem inStep_login (halike : ∀ n, alike n n) (husername : c.username = c'.username)
    (h : ∀ f f', found c.username f f' →
      f.ToldAlike alike d.hideUnknown c.password c'.password f') :
    (d.login c).run.InStep alike found (d.login c').run := by
  have hchecked : InStep alike found
      ((authenticate c.username c.password).run >>= fun result =>
        pure (result.mapError d.hideUnknown))
      ((authenticate c'.username c'.password).run >>= fun result =>
        pure (result.mapError d.hideUnknown)) := by
    rw [checked_eq_ask, checked_eq_ask, ← husername]
    apply InStep.find
    intro f f' hfound
    have htold := h f f' hfound
    rw [htold.result]
    exact inStep_noting htold.notes _
  refine InStep.serve_bind hchecked fun profile => ?_
  apply inStep_self halike
  apply only_serve_bind (d.only_createToken id id id profile.id)
  intro issued
  exact only_serve_bind (only_persist id (fun _ _ _ => id) (fun _ => id) profile issued)
    fun _ => trivial

theorem inStep_answerLogin (halike : ∀ n, alike n n) (hreq : req.SameButPassword req')
    (h : ∀ c c', readCredentials req = .ok c → readCredentials req' = .ok c' →
      ∀ f f', found c.username f f' →
        f.ToldAlike alike d.hideUnknown c.password c'.password f') :
    (d.answerLogin req).InStep alike found (d.answerLogin req') := by
  have hbody := hreq.body
  unfold answerLogin
  cases hread : readCredentials req with
  | error response =>
    cases hread' : readCredentials req' with
    | error response' =>
      rw [hread, hread'] at hbody
      obtain rfl := Except.error.inj hbody
      exact .done _
    | ok c' =>
      rw [hread, hread'] at hbody
      cases hbody
  | ok c =>
    cases hread' : readCredentials req' with
    | error response' =>
      rw [hread, hread'] at hbody
      cases hbody
    | ok c' =>
      rw [hread, hread'] at hbody
      apply (inStep_login halike (Except.ok.inj hbody) (h c c' hread hread')).bind
      rintro (r | l)
      · exact inStep_self halike (only_refuse (fun _ => id) r)
      · exact inStep_self halike (only_bind (only_perform id) fun _ => trivial)

theorem inStep_handler (halike : ∀ n, alike n n) (hreq : req.SameButPassword req')
    (h : ∀ c c', readCredentials req = .ok c → readCredentials req' = .ok c' →
      ∀ f f', found c.username f f' →
        f.ToldAlike alike d.hideUnknown c.password c'.password f')
    (r : Route) (who : Option Identity) :
    (d.handler req r who).InStep alike found (d.handler req' r who) := by
  by_cases hlogin : r = .login
  · subst hlogin
    exact inStep_answerLogin halike hreq h
  · have hsame : d.handler req' r who = d.handler req r who := by
      cases r with
      | login => exact absurd rfl hlogin
      | _ => rfl
    rw [hsame]
    apply inStep_self halike
    exact only_handler (fun _ => id) (fun _ => id) (fun _ => id) d req r
      (fun h => absurd h hlogin) who

end Deployment

namespace Gate

variable {alike : Note → Note → Prop} {found : String → Found → Found → Prop} {d : Deployment}

theorem inStep_guard (halike : ∀ n, alike n n) (headers : Http.Headers) (g : Gate)
    {next next' : Handler} (hnext : ∀ who, (next who).InStep alike found (next' who))
    (who : Option Identity) :
    (g.guard d headers next who).InStep alike found (g.guard d headers next' who) := by
  have hrefuse : ∀ r, (refuse r).InStep alike found (refuse r) :=
    fun r => Program.inStep_self halike (only_refuse (fun _ => id) r)
  have hauthorize : (d.authorize headers).run.InStep alike found (d.authorize headers).run :=
    Program.inStep_self halike (d.only_authorize id (fun _ => id) (fun _ => id) headers)
  cases g with
  | session =>
    apply hauthorize.bind
    rintro (r | who)
    · exact hrefuse r
    · exact hnext (some who)
  | logout =>
    apply hauthorize.bind
    rintro (r | who)
    · cases r with
      | expired => exact .note (halike _) (.done _)
      | _ => exact hrefuse _
    · exact hnext (some who)
  | role r =>
    cases who with
    | none => exact hrefuse _
    | some who =>
      dsimp only [guard]
      split
      · exact hnext (some who)
      · exact .note (halike _) (hrefuse _)
  | subscription =>
    cases who with
    | none => exact hrefuse _
    | some who =>
      dsimp only [guard]
      split
      · exact hnext (some who)
      · exact .note (halike _) (hrefuse _)

theorem inStep_stack (halike : ∀ n, alike n n) (headers : Http.Headers) (gates : List Gate)
    {next next' : Handler} (hnext : ∀ who, (next who).InStep alike found (next' who))
    (who : Option Identity) :
    (stack d headers gates next who).InStep alike found (stack d headers gates next' who) := by
  induction gates generalizing who with
  | nil => exact hnext who
  | cons g gates ih => exact inStep_guard halike headers g ih who

end Gate

namespace Deployment

theorem inStep_serve {alike : Note → Note → Prop} {found : String → Found → Found → Prop}
    {d : Deployment} {req req' : Http.Request} (halike : ∀ n, alike n n)
    (hreq : req.SameButPassword req')
    (h : ∀ c c', readCredentials req = .ok c → readCredentials req' = .ok c' →
      ∀ f f', found c.username f f' →
        f.ToldAlike alike d.hideUnknown c.password c'.password f') :
    (d.serve req).InStep alike found (d.serve req') := by
  unfold serve
  rw [hreq.target]
  cases Route.ofPath? (Http.pathOf req.target) with
  | none => exact .done _
  | some r =>
    dsimp only
    rw [hreq.method]
    refine Program.InStep.bind ?_ fun _ => .done _
    unfold answer
    rw [hreq.method, hreq.headers]
    split
    · exact Gate.inStep_stack halike _ _ (inStep_handler halike hreq h r) _
    · exact (Gate.inStep_stack halike _ _ (fun _ => .done _) _).bind fun _ => .done _

end Deployment

end SessionGate
