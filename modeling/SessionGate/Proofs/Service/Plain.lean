import SessionGate.Api.Route
import SessionGate.Proofs.Service.Live

/-!
The operations that each piece of work comes to. What a request does apart from logging in, logging out
and revoking neither stores nor deletes: it checks credentials, finds out who the request acts as, takes
notes and turns requests down.
-/

namespace SessionGate

open Program

section

variable {allowed : {β : Type} → Effect β → Prop}

theorem only_note (hnote : ∀ n, allowed (.note n)) (n : Note) : (Serve.note n).run.Only allowed :=
  only_serve_perform (hnote n)

theorem only_refuse (hnote : ∀ n, allowed (.note n)) (r : Refusal) : (refuse r).Only allowed :=
  only_bind (only_perform (hnote _)) fun _ => trivial

namespace Deployment

theorem only_authenticate (hfind : ∀ username, allowed (.find username))
    (hnote : ∀ n, allowed (.note n)) (username password : String) :
    (authenticate username password).run.Only allowed := by
  apply only_serve_bind (only_serve_perform (hfind username))
  rintro (fault | account)
  · trivial
  · cases account with
    | none => exact only_serve_bind (only_note hnote _) fun _ => trivial
    | some account =>
      dsimp only
      split
      · trivial
      · exact only_serve_bind (only_note hnote _) fun _ => trivial

theorem only_createToken (hnow : allowed .now) (hdraw : allowed .draw)
    (hpast : allowed .pastCalendar) (d : Deployment) (subject : Int64) :
    (d.createToken subject).run.Only allowed := by
  apply only_serve_bind (only_serve_perform hnow)
  intro now
  cases Token.Authority.expiry? now with
  | none => exact ⟨hpast, fun impossible => nomatch impossible⟩
  | some expiry => exact only_serve_bind (only_serve_perform hdraw) fun _ => trivial

theorem only_persist (hnow : allowed .now)
    (hcreate : ∀ id r lifetime, allowed (.create id r lifetime)) (hnote : ∀ n, allowed (.note n))
    (profile : Profile) (issued : Token.Issued) : (persist profile issued).run.Only allowed := by
  apply only_serve_bind (only_serve_perform hnow)
  intro now
  dsimp only
  split
  · trivial
  · apply only_serve_bind (only_serve_perform (hcreate _ _ _))
    rintro (fault | ⟨⟩)
    · exact only_serve_bind (only_note hnote _) fun _ => trivial
    · exact only_note hnote _

theorem only_invalidate (hdelete : ∀ id, allowed (.delete id)) (hnote : ∀ n, allowed (.note n))
    (id : String) : (invalidate id).run.Only allowed := by
  apply only_serve_bind (only_serve_perform (hdelete id))
  rintro (fault | ⟨⟩)
  · exact only_serve_bind (only_note hnote _) fun _ => trivial
  · exact only_note hnote _

theorem only_claimedSession (hnow : allowed .now) (d : Deployment) (headers : Http.Headers) :
    (d.claimedSession headers).run.Only allowed := by
  unfold claimedSession
  cases d.assertion? headers with
  | some value => trivial
  | none =>
    apply only_serve_bind (s := ExceptT.mk (pure (bearerToken headers))) trivial
    intro token
    exact only_serve_bind (only_serve_bind (only_serve_perform hnow) fun _ => trivial)
      fun _ => trivial

theorem only_resolve (hread : ∀ id, allowed (.read id)) (hnote : ∀ n, allowed (.note n))
    (d : Deployment) (session : String) : (d.resolve session).run.Only allowed := by
  apply only_serve_bind (only_serve_perform (hread session))
  rintro (fault | stored)
  · cases fault with
    | notFound => trivial
    | _ => exact only_serve_bind (only_note hnote _) fun _ => trivial
  · cases stored with
    | record r => trivial
    | scalar text =>
      cases d.acceptLegacy with
      | false => exact only_serve_bind (only_note hnote _) fun _ => trivial
      | true =>
        dsimp only
        cases legacySubject text <;> exact only_serve_bind (only_note hnote _) fun _ => trivial

theorem only_authorize (hnow : allowed .now) (hread : ∀ id, allowed (.read id))
    (hnote : ∀ n, allowed (.note n)) (d : Deployment) (headers : Http.Headers) :
    (d.authorize headers).run.Only allowed :=
  only_serve_bind (d.only_claimedSession hnow headers) (d.only_resolve hread hnote)

end Deployment

namespace Gate

theorem only_guard (hnow : allowed .now) (hread : ∀ id, allowed (.read id))
    (hnote : ∀ n, allowed (.note n)) (d : Deployment) (headers : Http.Headers) (g : Gate)
    {next : Handler} (hnext : ∀ who, (next who).Only allowed) (who : Option Identity) :
    (g.guard d headers next who).Only allowed := by
  cases g with
  | session =>
    apply only_bind (d.only_authorize hnow hread hnote headers)
    rintro (r | who)
    · exact only_refuse hnote r
    · exact hnext (some who)
  | logout =>
    apply only_bind (d.only_authorize hnow hread hnote headers)
    rintro (r | who)
    · cases r with
      | expired => exact only_bind (only_perform (hnote _)) fun _ => trivial
      | _ => exact only_refuse hnote _
    · exact hnext (some who)
  | role r =>
    cases who with
    | none => exact only_refuse hnote _
    | some who =>
      dsimp only [guard]
      split
      · exact hnext (some who)
      · exact only_bind (only_perform (hnote _)) fun _ => only_refuse hnote _
  | subscription =>
    cases who with
    | none => exact only_refuse hnote _
    | some who =>
      dsimp only [guard]
      split
      · exact hnext (some who)
      · exact only_bind (only_perform (hnote _)) fun _ => only_refuse hnote _

theorem only_stack (hnow : allowed .now) (hread : ∀ id, allowed (.read id))
    (hnote : ∀ n, allowed (.note n)) (d : Deployment) (headers : Http.Headers) (gates : List Gate)
    {handler : Handler} (hhandler : ∀ who, (handler who).Only allowed) (who : Option Identity) :
    (stack d headers gates handler who).Only allowed := by
  induction gates generalizing who with
  | nil => exact hhandler who
  | cons g gates ih => exact only_guard hnow hread hnote d headers g ih who

end Gate

namespace Deployment

theorem only_withIdentity (hnote : ∀ n, allowed (.note n))
    {f : Identity → Program Effect Http.Response} (h : ∀ who, (f who).Only allowed)
    (who : Option Identity) : (withIdentity f who).Only allowed := by
  cases who with
  | none => exact only_refuse hnote _
  | some who => exact h who

/-- What is behind the gates deletes and publishes, and on the route of a login it logs in. -/
theorem only_handler (hdelete : ∀ id, allowed (.delete id)) (hpublish : ∀ e, allowed (.publish e))
    (hnote : ∀ n, allowed (.note n)) (d : Deployment) (req : Http.Request) (r : Route)
    (hlogin : r = .login → (d.answerLogin req).Only allowed) (who : Option Identity) :
    (d.handler req r who).Only allowed := by
  cases r with
  | health | keys => trivial
  | login => exact hlogin rfl
  | logout =>
    apply only_withIdentity hnote
    intro who
    apply only_bind (only_invalidate hdelete hnote who.session)
    rintro (r | ⟨⟩)
    · exact only_refuse hnote r
    · exact only_bind (only_perform (hpublish _)) fun _ => trivial
  | revoke part =>
    apply only_withIdentity hnote
    intro who
    unfold answerRevoke
    cases Http.percentDecode? part with
    | none => trivial
    | some session =>
      apply only_bind (only_invalidate hdelete hnote session)
      rintro (r | ⟨⟩)
      · exact only_refuse hnote r
      · exact only_bind (only_perform (hnote _)) fun _ =>
          only_bind (only_perform (hpublish _)) fun _ => trivial
  | profile | subscription =>
    apply only_withIdentity hnote
    exact fun _ => trivial

end Deployment

end

theorem plain_note (n : Note) : (Serve.note n).run.Plain := only_note (fun _ => ⟨id, id⟩) n

theorem plain_refuse (r : Refusal) : (refuse r).Plain := only_refuse (fun _ => ⟨id, id⟩) r

namespace Deployment

theorem plain_authenticate (username password : String) :
    (authenticate username password).run.Plain :=
  only_authenticate (fun _ => ⟨id, id⟩) (fun _ => ⟨id, id⟩) username password

theorem plain_authorize (d : Deployment) (headers : Http.Headers) :
    (d.authorize headers).run.Plain :=
  d.only_authorize ⟨id, id⟩ (fun _ => ⟨id, id⟩) (fun _ => ⟨id, id⟩) headers

end Deployment

/-- Plain work has the property, and takes it from nothing that follows. -/
structure KeptByPlain (P : Program Effect Http.Response → Prop) : Prop where
  plain : ∀ {p : Program Effect Http.Response}, p.Plain → P p
  bind : ∀ {α : Type} {p : Program Effect α} {f : α → Program Effect Http.Response}, p.Plain →
    (∀ a, P (f a)) → P (p >>= f)

namespace Gate

variable {P : Program Effect Http.Response → Prop}

theorem guard_of (hP : KeptByPlain P) (d : Deployment) (headers : Http.Headers) (g : Gate)
    {next : Handler} (hnext : ∀ who, P (next who)) (who : Option Identity) :
    P (g.guard d headers next who) := by
  cases g with
  | session =>
    apply hP.bind (d.plain_authorize headers)
    intro result
    cases result with
    | ok who => exact hnext (some who)
    | error r => exact hP.plain (plain_refuse r)
  | logout =>
    apply hP.bind (d.plain_authorize headers)
    intro result
    cases result with
    | ok who => exact hnext (some who)
    | error r =>
      apply hP.plain
      cases r with
      | expired => exact only_bind (only_perform ⟨id, id⟩) fun _ => trivial
      | _ => exact plain_refuse _
  | role r =>
    cases who with
    | none => exact hP.plain (plain_refuse _)
    | some who =>
      dsimp only [guard]
      split
      · exact hnext (some who)
      · exact hP.plain (only_bind (only_perform ⟨id, id⟩) fun _ => plain_refuse _)
  | subscription =>
    cases who with
    | none => exact hP.plain (plain_refuse _)
    | some who =>
      dsimp only [guard]
      split
      · exact hnext (some who)
      · exact hP.plain (only_bind (only_perform ⟨id, id⟩) fun _ => plain_refuse _)

theorem stack_of (hP : KeptByPlain P) (d : Deployment) (headers : Http.Headers)
    (gates : List Gate) {next : Handler} (hnext : ∀ who, P (next who)) (who : Option Identity) :
    P (stack d headers gates next who) := by
  induction gates generalizing who with
  | nil => exact hnext who
  | cons g gates ih => exact g.guard_of hP d headers ih who

end Gate

end SessionGate
