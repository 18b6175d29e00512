import SessionGate.Proofs.Service.Plain

/-!
The order in which a request does things. All that can fail comes before the one operation that changes
anything; an operation that fails is followed by notes and by an answer that only its refusal decides;
and an event is the last thing of all. `Orderly` says so of a program, whatever its surroundings answer,
and `Deployment.orderly_serve` says it of every request.
-/

namespace SessionGate

/-- What the failure of an operation becomes. -/
def Effect.refusal? : {β : Type} → Effect β → β → Option Refusal
  | _, .find _ => fun
    | .error fault => some (.directory fault)
    | .ok _ => none
  | _, .create _ _ _ | _, .delete _ => fun
    | .error fault => some (.store fault)
    | .ok () => none
  | _, .read _ => fun
    | .error .notFound => some .noSession
    | .error fault => some (.store fault)
    | .ok _ => none
  | _, _ => fun _ => none

def Effect.IsNote : {β : Type} → Effect β → Prop
  | _, .note _ => True
  | _, _ => False

def Effect.IsPublish : {β : Type} → Effect β → Prop
  | _, .publish _ => True
  | _, _ => False

def Effect.IsRead : {β : Type} → Effect β → Prop
  | _, .read _ => True
  | _, _ => False

/-- Operations that others notice: they write a session, or they tell of an event. -/
def Effect.IsChange (op : Effect β) : Prop := op.IsWrite ∨ op.IsPublish

/-- Operations that neither fail nor change anything. -/
def Effect.IsHarmless : {β : Type} → Effect β → Prop
  | _, .now => True
  | _, .draw => True
  | _, .note _ => True
  | _, .pastCalendar => True
  | _, _ => False

def Refusal.OfFault : Refusal → Prop
  | .store _ | .directory _ | .noSession => True
  | _ => False

namespace Effect

variable {op : Effect β} {b : β}

theorem ofFault_of_refusal? {r : Refusal} (h : op.refusal? b = some r) : r.OfFault := by
  cases op with
  | find | create | delete =>
    cases b with
    | error fault =>
      obtain rfl := Option.some.inj h
      trivial
    | ok found => cases h
  | read =>
    cases b with
    | error fault => cases fault <;> cases h <;> trivial
    | ok found => cases h
  | _ => cases h

theorem refusal?_of_isHarmless (h : op.IsHarmless) (b : β) : op.refusal? b = none := by
  cases op <;> first | rfl | cases h

theorem not_isChange_of_isHarmless (h : op.IsHarmless) : ¬ op.IsChange := by
  cases op <;> first | exact not_or.mpr ⟨id, id⟩ | cases h

theorem isHarmless_of_isNote (h : op.IsNote) : op.IsHarmless := by
  cases op <;> trivial

end Effect

namespace Program

/-- What is left to do is to take notes and to come to a result. -/
def Settled (p : Program Effect α) (a : α) : Prop := ∃ notes, p = noting notes a

/-- What is left to do is to take notes, and to publish an event last if at all. -/
def Closing : Program Effect α → Prop
  | done _ => True
  | ask op next => op.IsNote ∧ (∀ b, (next b).Closing) ∨ op.IsPublish ∧ ∀ b, ∃ a, next b = done a

/-- Nothing is changed, and a failure leads to its refusal at once. -/
def Mild (answer : Refusal → α) : Program Effect α → Prop
  | done _ => True
  | ask op next => ¬ op.IsChange ∧ ∀ b,
    (∀ r, op.refusal? b = some r → (next b).Settled (answer r)) ∧
    (op.refusal? b = none → (next b).Mild answer)

/-- A failure leads to its refusal at once, what has written a session only closes, and what has
published an event is done. -/
def Orderly (answer : Refusal → α) : Program Effect α → Prop
  | done _ => True
  | ask op next => ∀ b,
    (∀ r, op.refusal? b = some r → (next b).Settled (answer r)) ∧
    (op.refusal? b = none → (op.IsWrite → (next b).Closing) ∧
      (op.IsPublish → ∃ a, next b = done a) ∧ (¬ op.IsChange → (next b).Orderly answer))

def Harmless (p : Program Effect α) : Prop := p.Only Effect.IsHarmless

/-- No session is looked up, and no event is published. -/
def Discreet (p : Program Effect α) : Prop := p.Only fun op => ¬ op.IsPublish ∧ ¬ op.IsRead

section

variable {p : Program Effect α} {f : α → Program Effect β} {answer : Refusal → α}
  {answer' : Refusal → β} {a : α} {b : β}

theorem settled_done (a : α) : (done a).Settled a := ⟨[], rfl⟩

theorem Settled.note (h : p.Settled a) (n : Note) : (ask (.note n) fun _ => p).Settled a := by
  obtain ⟨notes, rfl⟩ := h
  exact ⟨n :: notes, rfl⟩

theorem Settled.bind (h : p.Settled a) (hf : (f a).Settled b) : (p >>= f).Settled b := by
  obtain ⟨notes, rfl⟩ := h
  induction notes with
  | nil => exact hf
  | cons n notes ih => exact ih.note n

theorem Settled.harmless (h : p.Settled a) : p.Harmless := by
  obtain ⟨notes, rfl⟩ := h
  induction notes with
  | nil => trivial
  | cons n notes ih => exact ⟨trivial, fun _ => ih⟩

theorem Settled.closing (h : p.Settled a) : p.Closing := by
  obtain ⟨notes, rfl⟩ := h
  induction notes with
  | nil => trivial
  | cons n notes ih => exact .inl ⟨trivial, fun _ => ih⟩

theorem Harmless.mild (h : p.Harmless) (answer : Refusal → α) : p.Mild answer := by
  induction p with
  | done a => trivial
  | ask op next ih =>
    refine ⟨Effect.not_isChange_of_isHarmless h.1, fun b => ⟨fun r hr => ?_, fun _ => ih b (h.2 b)⟩⟩
    rw [Effect.refusal?_of_isHarmless h.1] at hr
    cases hr

theorem Mild.unchanging (h : p.Mild answer) : p.Only fun op => ¬ op.IsChange := by
  induction p with
  | done a => trivial
  | ask op next ih =>
    refine ⟨h.1, fun b => ?_⟩
    cases hr : op.refusal? b with
    | some r =>
      refine ((h.2 b).1 r hr).harmless.mono ?_
      exact fun op => Effect.not_isChange_of_isHarmless
    | none => exact ih b ((h.2 b).2 hr)

theorem Mild.orderly (h : p.Mild answer) : p.Orderly answer := by
  induction p with
  | done a => trivial
  | ask op next ih =>
    obtain ⟨hop, hnext⟩ := h
    obtain ⟨hwrite, hpublish⟩ := not_or.mp hop
    refine fun b => ⟨(hnext b).1, fun hr => ⟨?_, ?_, fun _ => ih b ((hnext b).2 hr)⟩⟩
    · exact fun hop => absurd hop hwrite
    · exact fun hop => absurd hop hpublish

theorem Closing.bind (h : p.Closing) (hp : p.Discreet)
    (hf : ∀ a, (f a).Closing) : (p >>= f).Closing := by
  induction p with
  | done a => exact hf a
  | ask op next ih =>
    rcases h with ⟨hop, hnext⟩ | ⟨hop, -⟩
    · exact .inl ⟨hop, fun b => ih b (hnext b) (hp.2 b)⟩
    · exact absurd hop hp.1.1

theorem Closing.map (h : p.Closing) (g : α → β) : (p >>= fun a => pure (g a)).Closing := by
  induction p with
  | done a => trivial
  | ask op next ih =>
    rcases h with ⟨hop, hnext⟩ | ⟨hop, hnext⟩
    · exact .inl ⟨hop, fun b => ih b (hnext b)⟩
    · refine .inr ⟨hop, fun b => ?_⟩
      obtain ⟨a, ha⟩ := hnext b
      exact ⟨g a, congrArg (· >>= fun a => pure (g a)) ha⟩

theorem Closing.orderly (h : p.Closing) (answer : Refusal → α) : p.Orderly answer := by
  induction p with
  | done a => trivial
  | ask op next ih =>
    intro b
    rcases h with ⟨hop, hnext⟩ | ⟨hop, hnext⟩
    · cases op with
      | note n => exact ⟨nofun, fun _ => ⟨nofun, nofun, fun _ => ih b (hnext b)⟩⟩
      | _ => cases hop
    · cases op with
      | publish e =>
        exact ⟨nofun, fun _ => ⟨nofun, fun _ => hnext b, fun hchange => absurd (.inr hop) hchange⟩⟩
      | _ => cases hop

theorem Mild.bind (h : p.Mild answer) (hanswer : ∀ r, r.OfFault → (f (answer r)).Settled (answer' r))
    (hf : ∀ a, (f a).Mild answer') : (p >>= f).Mild answer' := by
  induction p with
  | done a => exact hf a
  | ask op next ih =>
    refine ⟨h.1, fun b => ⟨fun r hr => ?_, fun hr => ih b ((h.2 b).2 hr)⟩⟩
    exact ((h.2 b).1 r hr).bind (hanswer r (Effect.ofFault_of_refusal? hr))

theorem Mild.bind_orderly (h : p.Mild answer)
    (hanswer : ∀ r, r.OfFault → (f (answer r)).Settled (answer' r))
    (hf : ∀ a, (f a).Orderly answer') : (p >>= f).Orderly answer' := by
  induction p with
  | done a => exact hf a
  | ask op next ih =>
    obtain ⟨hop, hnext⟩ := h
    obtain ⟨hwrite, hpublish⟩ := not_or.mp hop
    refine fun b => ⟨fun r hr => ?_, fun hr => ⟨?_, ?_, fun _ => ih b ((hnext b).2 hr)⟩⟩
    · exact ((hnext b).1 r hr).bind (hanswer r (Effect.ofFault_of_refusal? hr))
    · exact fun hop => absurd hop hwrite
    · exact fun hop => absurd hop hpublish

/-- What may have written a session is followed by no more than its close. -/
theorem Orderly.bind_closing (h : p.Orderly answer) (hp : p.Discreet)
    (hanswer : ∀ r, r.OfFault → (f (answer r)).Settled (answer' r))
    (hf : ∀ a, (f a).Closing) : (p >>= f).Orderly answer' := by
  induction p with
  | done a => exact (hf a).orderly answer'
  | ask op next ih =>
    intro b
    obtain ⟨hfault, hgood⟩ := h b
    refine ⟨fun r hr => ?_, fun hr => ⟨fun hop => ?_, fun hop => absurd hop hp.1.1, fun hop => ?_⟩⟩
    · exact (hfault r hr).bind (hanswer r (Effect.ofFault_of_refusal? hr))
    · exact ((hgood hr).1 hop).bind (hp.2 b) hf
    · exact ih b ((hgood hr).2.2 hop) (hp.2 b)

theorem Orderly.map (h : p.Orderly answer) (g : α → β) :
    (p >>= fun a => pure (g a)).Orderly fun r => g (answer r) := by
  induction p with
  | done a => trivial
  | ask op next ih =>
    intro b
    obtain ⟨hfault, hgood⟩ := h b
    refine ⟨fun r hr => ?_, fun hr => ⟨fun hop => ?_, fun hop => ?_, fun hop => ?_⟩⟩
    · exact (hfault r hr).bind (settled_done _)
    · exact ((hgood hr).1 hop).map g
    · obtain ⟨a, ha⟩ := (hgood hr).2.1 hop
      exact ⟨g a, congrArg (· >>= fun a => pure (g a)) ha⟩
    · exact ih b ((hgood hr).2.2 hop)

end

section

variable {s : Serve α} {f : α → Serve β}

theorem Mild.serve_bind (h : s.run.Mild .error) (hf : ∀ a, (f a).run.Mild .error) :
    (s >>= f).run.Mild .error := by
  change (s.run >>= ExceptT.bindCont f).Mild .error
  apply h.bind
  · exact fun r _ => settled_done _
  · rintro (r | a)
    · trivial
    · exact hf a

theorem Mild.serve_bind_orderly (h : s.run.Mild .error) (hf : ∀ a, (f a).run.Orderly .error) :
    (s >>= f).run.Orderly .error := by
  change (s.run >>= ExceptT.bindCont f).Orderly .error
  apply h.bind_orderly
  · exact fun r _ => settled_done _
  · rintro (r | a)
    · trivial
    · exact hf a

end

end Program

open Program

theorem settled_refuse (r : Refusal) : (refuse r).Settled r.response := ⟨[_], rfl⟩

namespace Deployment

variable (d : Deployment)

theorem mild_authenticate (username password : String) :
    (authenticate username password).run.Mild .error := by
  refine ⟨not_or.mpr ⟨id, id⟩, fun found => ?_⟩
  rcases found with fault | account
  · exact ⟨fun r hr => ⟨[], by cases hr; rfl⟩, nofun⟩
  · refine ⟨nofun, fun _ => Harmless.mild ?_ _⟩
    cases account with
    | none => exact Settled.harmless ⟨[_], rfl⟩
    | some account =>
      change Harmless (ExceptT.run (if _ then _ else _))
      split
      · trivial
      · exact Settled.harmless ⟨[_], rfl⟩

theorem harmless_claimedSession (headers : Http.Headers) :
    (d.claimedSession headers).run.Harmless :=
  d.only_claimedSession trivial headers

theorem identityOf_of_refusal? {id : String} {answer : Except Session.StoreFault Session.Stored}
    {r : Refusal} (h : Effect.refusal? (.read id) answer = some r) :
    d.identityOf id answer = .error r := by
  rcases answer with (_ | _ | _ | _) | _ <;> cases h <;> rfl

theorem mild_resolve (id : String) : (d.resolve id).run.Mild .error := by
  obtain ⟨notes, h⟩ := d.resolve_eq_ask id
  rw [h]
  refine ⟨not_or.mpr ⟨nofun, nofun⟩, fun answer => ⟨fun r hr => ⟨notes answer, ?_⟩, fun _ => ?_⟩⟩
  · exact congrArg (noting _) (d.identityOf_of_refusal? hr)
  · exact (Settled.harmless ⟨notes answer, rfl⟩).mild _

theorem mild_authorize (headers : Http.Headers) : (d.authorize headers).run.Mild .error :=
  .serve_bind ((d.harmless_claimedSession headers).mild _) d.mild_resolve

theorem harmless_createToken (subject : Int64) : (d.createToken subject).run.Harmless :=
  d.only_createToken trivial trivial trivial subject

theorem orderly_persist (profile : Profile) (issued : Token.Issued) :
    (persist profile issued).run.Orderly .error := by
  apply Mild.serve_bind_orderly (s := Serve.perform .now)
    ⟨not_or.mpr ⟨id, id⟩, fun _ => ⟨nofun, fun _ => trivial⟩⟩
  intro now
  dsimp only
  split
  · trivial
  · rintro (fault | ⟨⟩)
    · exact ⟨fun r hr => ⟨[_], by cases hr; rfl⟩, nofun⟩
    · have hnote : (Serve.note (.created issued.session profile.id)).run.Settled (.ok ()) :=
        ⟨[_], rfl⟩
      exact ⟨nofun, fun _ => ⟨fun _ => hnote.closing, nofun, fun h => absurd (.inl trivial) h⟩⟩

theorem orderly_invalidate (id : String) : (invalidate id).run.Orderly .error := by
  rintro (fault | ⟨⟩)
  · exact ⟨fun r hr => ⟨[_], by cases hr; rfl⟩, nofun⟩
  · have hnote : (Serve.note (.invalidated id)).run.Settled (.ok ()) := ⟨[_], rfl⟩
    exact ⟨nofun, fun _ => ⟨fun _ => hnote.closing, nofun, fun h => absurd (.inl trivial) h⟩⟩

theorem discreet_persist (profile : Profile) (issued : Token.Issued) :
    (persist profile issued).run.Discreet :=
  only_persist ⟨id, id⟩ (fun _ _ _ => ⟨id, id⟩) (fun _ => ⟨id, id⟩) profile issued

theorem discreet_invalidate (session : String) : (invalidate session).run.Discreet :=
  only_invalidate (fun _ => ⟨id, id⟩) (fun _ => ⟨id, id⟩) session

theorem mild_checked (c : Credentials) :
    ((authenticate c.username c.password).run >>= fun result =>
      pure (result.mapError d.hideUnknown)).Mild .error := by
  apply (mild_authenticate c.username c.password).bind
  · -- No failure is an unknown user, so none is hidden.
    intro r hr
    cases r <;> first | exact settled_done _ | cases hr
  · exact fun _ => trivial

theorem discreet_login (c : Credentials) : (d.login c).run.Discreet := by
  apply only_serve_bind (s := ExceptT.mk _)
  · apply only_bind (only_authenticate (fun _ => ⟨id, id⟩) (fun _ => ⟨id, id⟩) c.username c.password)
    exact fun _ => trivial
  · intro profile
    apply only_serve_bind (d.only_createToken ⟨id, id⟩ ⟨id, id⟩ ⟨id, id⟩ profile.id)
    intro issued
    exact only_serve_bind (discreet_persist profile issued) fun _ => trivial

theorem orderly_login (c : Credentials) : (d.login c).run.Orderly .error := by
  apply Mild.serve_bind_orderly (s := ExceptT.mk _) (d.mild_checked c)
  intro profile
  apply Mild.serve_bind_orderly ((d.harmless_createToken profile.id).mild _)
  intro issued
  apply (orderly_persist profile issued).bind_closing (discreet_persist profile issued)
  · exact fun r _ => settled_done _
  · rintro (r | ⟨⟩) <;> trivial

theorem orderly_answerLogin (req : Http.Request) :
    (d.answerLogin req).Orderly Refusal.response := by
  unfold answerLogin
  cases readCredentials req with
  | error response => trivial
  | ok c =>
    apply (d.orderly_login c).bind_closing (d.discreet_login c)
    · exact fun r _ => settled_refuse r
    · rintro (r | l)
      · exact (settled_refuse r).closing
      · exact .inr ⟨trivial, fun _ => ⟨_, rfl⟩⟩

theorem orderly_answerLogout (who : Identity) :
    (answerLogout who).Orderly Refusal.response := by
  apply (orderly_invalidate who.session).bind_closing (discreet_invalidate who.session)
  · exact fun r _ => settled_refuse r
  · rintro (r | ⟨⟩)
    · exact (settled_refuse r).closing
    · exact .inr ⟨trivial, fun _ => ⟨_, rfl⟩⟩

theorem orderly_answerRevoke (part : String) (who : Identity) :
    (answerRevoke part who).Orderly Refusal.response := by
  unfold answerRevoke
  cases Http.percentDecode? part with
  | none => trivial
  | some session =>
    apply (orderly_invalidate session).bind_closing (discreet_invalidate session)
    · exact fun r _ => settled_refuse r
    · rintro (r | ⟨⟩)
      · exact (settled_refuse r).closing
      · exact .inl ⟨trivial, fun _ => .inr ⟨trivial, fun _ => ⟨_, rfl⟩⟩⟩

theorem orderly_withIdentity {f : Identity → Program Effect Http.Response}
    (h : ∀ who, (f who).Orderly Refusal.response) (who : Option Identity) :
    (withIdentity f who).Orderly Refusal.response := by
  cases who with
  | none => exact (settled_refuse .noSession).closing.orderly _
  | some who => exact h who

theorem orderly_handler (req : Http.Request) (r : Route) (who : Option Identity) :
    (d.handler req r who).Orderly Refusal.response := by
  cases r with
  | health | keys => trivial
  | login => exact d.orderly_answerLogin req
  | logout => exact orderly_withIdentity orderly_answerLogout who
  | revoke part => exact orderly_withIdentity (orderly_answerRevoke part) who
  | profile | subscription =>
    refine orderly_withIdentity ?_ who
    exact fun _ => trivial

end Deployment

namespace Gate

variable (d : Deployment) (headers : Http.Headers)

theorem orderly_guard (g : Gate) {next : Handler}
    (hnext : ∀ who, (next who).Orderly Refusal.response) (who : Option Identity) :
    (g.guard d headers next who).Orderly Refusal.response := by
  cases g with
  | session =>
    apply (d.mild_authorize headers).bind_orderly
    · exact fun r _ => settled_refuse r
    · rintro (r | who)
      · exact (settled_refuse r).closing.orderly _
      · exact hnext (some who)
  | logout =>
    apply (d.mild_authorize headers).bind_orderly
    · intro r hr
      cases r <;> first | exact settled_refuse _ | cases hr
    · rintro (r | who)
      · apply Closing.orderly
        cases r <;> first | exact (settled_refuse _).closing | exact Settled.closing ⟨[_], rfl⟩
      · exact hnext (some who)
  | role r =>
    cases who with
    | none => exact (settled_refuse .noSession).closing.orderly _
    | some who =>
      dsimp only [guard]
      split
      · exact hnext (some who)
      · exact ((settled_refuse .forbidden).note _).closing.orderly _
  | subscription =>
    cases who with
    | none => exact (settled_refuse .noSession).closing.orderly _
    | some who =>
      dsimp only [guard]
      split
      · exact hnext (some who)
      · exact ((settled_refuse .forbidden).note _).closing.orderly _

theorem orderly_stack (gates : List Gate) {handler : Handler}
    (hhandler : ∀ who, (handler who).Orderly Refusal.response) (who : Option Identity) :
    (stack d headers gates handler who).Orderly Refusal.response := by
  induction gates generalizing who with
  | nil => exact hhandler who
  | cons g gates ih => exact orderly_guard d headers g ih who

end Gate

end SessionGate
