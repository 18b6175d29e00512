import SessionGate.Proofs.Service.Plain
import SessionGate.Proofs.Token.Issue
import SessionGate.Proofs.Traffic.Basic

/-!
No session id is stored twice. A request holds an id from the moment that it is given out until it is
stored, and stores no other; so where the ids given out differ, the ids stored differ.
-/

namespace SessionGate

/-- Only an id that is held may be stored. -/
def Effect.Allowed (held : Option String) : {β : Type} → Effect β → Prop
  | _, .create id _ _ => held = some id
  | _, _ => True

def Effect.heldAfter (held : Option String) : {β : Type} → Effect β → β → Option String
  | _, .draw, number => some (Token.sessionId number)
  | _, .create _ _ _, _ => none
  | _, _, _ => held

namespace Effect

theorem allowed_of_not_isWrite {op : Effect β} (h : ¬ op.IsWrite) (held : Option String) :
    op.Allowed held := by
  cases op with
  | create id r lifetime => exact absurd trivial h
  | _ => trivial

theorem heldAfter_of_plain {op : Effect β} (h : ¬ op.IsWrite ∧ ¬ op.IsDraw) (held : Option String)
    (b : β) : op.heldAfter held b = held := by
  cases op with
  | create id r lifetime => exact absurd trivial h.1
  | draw => exact absurd trivial h.2
  | _ => rfl

end Effect

namespace Program

/-- Holding an id to begin with, a program stores only what it holds, and comes to results with which
and with what is held then. -/
def Holds (held : Option String) (Q : Option String → α → Prop) : Program Effect α → Prop
  | done a => Q held a
  | ask op next => op.Allowed held ∧ ∀ b, (next b).Holds (op.heldAfter held b) Q

variable {held : Option String}

theorem Holds.bind {Q : Option String → β → Prop} {p : Program Effect α}
    {f : α → Program Effect β} (h : p.Holds held fun held a => (f a).Holds held Q) :
    (p >>= f).Holds held Q := by
  induction p generalizing held with
  | done a => exact h
  | ask op next ih => exact ⟨h.1, fun b => ih b (h.2 b)⟩

theorem Holds.mono {Q Q' : Option String → α → Prop} {p : Program Effect α} (h : p.Holds held Q)
    (hQ : ∀ held a, Q held a → Q' held a) : p.Holds held Q' := by
  induction p generalizing held with
  | done a => exact hQ held a h
  | ask op next ih => exact ⟨h.1, fun b => ih b (h.2 b)⟩

theorem Plain.holds {p : Program Effect α} (h : p.Plain) {Q : Option String → α → Prop}
    (hQ : ∀ a, Q held a) : p.Holds held Q := by
  induction p with
  | done a => exact hQ a
  | ask op next ih =>
    refine ⟨Effect.allowed_of_not_isWrite h.1.1 held, fun b => ?_⟩
    rw [Effect.heldAfter_of_plain h.1]
    exact ih b (h.2 b)

theorem Plain.holds_bind {p : Program Effect α} (h : p.Plain) {f : α → Program Effect β}
    {Q : Option String → β → Prop} (hf : ∀ a, (f a).Holds held Q) : (p >>= f).Holds held Q :=
  .bind (h.holds hf)

/-- What a sequence that may end in a refusal has to see to after its first part. -/
def AfterFirst (f : α → Serve β) (Q : Option String → Except Refusal β → Prop)
    (held : Option String) : Except Refusal α → Prop
  | .ok a => (f a).run.Holds held Q
  | .error r => Q held (.error r)

theorem Holds.serve_bind {s : Serve α} {f : α → Serve β}
    {Q : Option String → Except Refusal β → Prop} (h : s.run.Holds held (AfterFirst f Q)) :
    (s >>= f).run.Holds held Q := by
  change (s.run >>= ExceptT.bindCont f).Holds held Q
  apply Holds.bind
  apply h.mono
  intro held result hafter
  cases result with
  | ok a => exact hafter
  | error r => exact hafter

theorem Plain.holds_serve_bind {s : Serve α} (h : s.run.Plain) {f : α → Serve β}
    {Q : Option String → Except Refusal β → Prop} (hf : ∀ a, (f a).run.Holds held Q)
    (herror : ∀ r, Q held (.error r)) : (s >>= f).run.Holds held Q := by
  apply Holds.serve_bind
  apply h.holds
  intro result
  cases result with
  | ok a => exact hf a
  | error r => exact herror r

end Program

namespace Deployment

open Program

variable {held : Option String}

theorem holds_createToken (d : Deployment) (subject : Int64) :
    (d.createToken subject).run.Holds held fun held result =>
      ∀ issued, result = .ok issued → held = some issued.session := by
  unfold createToken
  apply Plain.holds_serve_bind (only_serve_perform ⟨id, id⟩)
  · intro now
    cases Token.Authority.expiry? now with
    | none => exact ⟨trivial, fun impossible => nomatch impossible⟩
    | some expiry =>
      refine ⟨trivial, fun number issued h => ?_⟩
      change d.authority.issue now expiry (Token.sessionId number) subject = .ok issued at h
      exact congrArg some (Token.Authority.issue_eq_ok h).2.1.symm
  · intro r issued h
    cases h

theorem holds_persist (profile : Profile) (issued : Token.Issued) :
    (persist profile issued).run.Holds (some issued.session) fun _ _ => True := by
  unfold persist
  apply Plain.holds_serve_bind (only_serve_perform ⟨id, id⟩)
  · intro now
    dsimp only
    split
    · trivial
    · refine ⟨rfl, fun answer => ?_⟩
      apply Plain.holds (h := ?_) fun _ => trivial
      cases answer with
      | error fault => exact only_serve_bind (plain_note _) fun _ => trivial
      | ok => exact plain_note _
  · exact fun _ => trivial

theorem holds_login (d : Deployment) (c : Credentials) :
    (d.login c).run.Holds held fun _ _ => True := by
  unfold login
  apply Plain.holds_serve_bind (s := ExceptT.mk _)
  · exact only_bind (plain_authenticate c.username c.password) fun _ => trivial
  · intro profile
    apply Holds.serve_bind
    apply (d.holds_createToken profile.id).mono
    intro held result h
    cases result with
    | error r => trivial
    | ok issued =>
      rw [h issued rfl]
      apply Holds.serve_bind
      apply (holds_persist profile issued).mono
      intro held result _
      cases result <;> trivial
  · exact fun _ => trivial

theorem holds_answerLogin (d : Deployment) (req : Http.Request) :
    (d.answerLogin req).Holds held fun _ _ => True := by
  unfold answerLogin
  cases readCredentials req with
  | error response => trivial
  | ok c =>
    apply Holds.bind
    apply (d.holds_login c).mono
    intro held result _
    cases result with
    | error r => exact (plain_refuse r).holds fun _ => trivial
    | ok login => exact ⟨trivial, fun _ => trivial⟩

theorem holds_invalidate (session : String) :
    (invalidate session).run.Holds held fun _ _ => True := by
  refine ⟨trivial, fun answer => ?_⟩
  apply Plain.holds (h := ?_) fun _ => trivial
  cases answer with
  | error fault => exact only_serve_bind (plain_note _) fun _ => trivial
  | ok => exact plain_note _

theorem holds_handler (d : Deployment) (req : Http.Request) (r : Route) (who : Option Identity) :
    (d.handler req r who).Holds held fun _ _ => True := by
  have hended : ∀ {session : String} {f : Except Refusal Unit → Program Effect Http.Response},
      (∀ result, (f result).Plain) →
        ((invalidate session).run >>= f).Holds held fun _ _ => True := by
    intro session f hf
    exact .bind ((holds_invalidate session).mono fun _ result _ => (hf result).holds fun _ => trivial)
  cases r with
  | login => exact d.holds_answerLogin req
  | logout =>
    cases who with
    | none => exact (plain_refuse _).holds fun _ => trivial
    | some who =>
      apply hended
      intro result
      cases result with
      | error r => exact plain_refuse r
      | ok => exact only_bind (only_perform ⟨id, id⟩) fun _ => trivial
  | revoke part =>
    cases who with
    | none => exact (plain_refuse _).holds fun _ => trivial
    | some who =>
      change (answerRevoke part who).Holds _ _
      unfold answerRevoke
      cases Http.percentDecode? part with
      | none => trivial
      | some session =>
        apply hended
        intro result
        cases result with
        | error r => exact plain_refuse r
        | ok =>
          exact only_bind (only_perform ⟨id, id⟩) fun _ =>
            only_bind (only_perform ⟨id, id⟩) fun _ => trivial
  | profile | subscription =>
    cases who with
    | none => exact (plain_refuse _).holds fun _ => trivial
    | some who => trivial
  | health | keys => trivial

end Deployment

open Program

variable {held : Option String}

theorem keptByPlain_holds : KeptByPlain fun p => p.Holds held fun _ _ => True where
  plain hp := hp.holds fun _ => trivial
  bind hp hf := hp.holds_bind hf

theorem Deployment.holds_serve (d : Deployment) (req : Http.Request) :
    (d.serve req).Holds none fun _ _ => True := by
  unfold serve
  cases Route.ofPath? (Http.pathOf req.target) with
  | none => trivial
  | some r =>
    apply Holds.bind
    unfold answer
    split
    · exact Gate.stack_of keptByPlain_holds d req.headers r.gates (d.holds_handler req r) none
    · apply Holds.bind
      have hempty : ∀ _ : Option Identity, (pure (.empty 405) : Program Effect Http.Response).Holds
          none fun _ _ => True := fun _ => trivial
      exact (Gate.stack_of keptByPlain_holds d req.headers r.gates hempty none).mono
        fun _ _ _ => trivial

namespace Traffic

/-- Which id each request holds: one that was given out, that was not stored yet and that no other
request holds. -/
structure Ledger (holder : Nat → Option String) (given kept : List String) : Prop where
  held_given : ∀ n id, holder n = some id → id ∈ given
  held_not_kept : ∀ n id, holder n = some id → id ∉ kept
  held_once : ∀ m n id, holder m = some id → holder n = some id → m = n
  kept_given : ∀ id ∈ kept, id ∈ given
  kept_nodup : kept.Nodup

def handOver (holder : Nat → Option String) (n : Nat) (held : Option String) : Nat → Option String :=
  fun m => if m = n then held else holder m

theorem handOver_self (holder : Nat → Option String) (n : Nat) (held : Option String) :
    handOver holder n held n = held := if_pos rfl

theorem handOver_of_ne (holder : Nat → Option String) {m n : Nat} (h : m ≠ n)
    (held : Option String) : handOver holder n held m = holder m := if_neg h

theorem handOver_same (holder : Nat → Option String) (n : Nat) :
    handOver holder n (holder n) = holder := by
  funext m
  by_cases h : m = n
  · rw [h, handOver_self]
  · exact handOver_of_ne holder h _

theorem eq_of_handOver_none {holder : Nat → Option String} {m n : Nat} {id : String}
    (h : handOver holder n none m = some id) : m ≠ n ∧ holder m = some id := by
  by_cases hm : m = n
  · rw [hm, handOver_self] at h
    cases h
  · exact ⟨hm, handOver_of_ne holder hm none ▸ h⟩

variable {holder : Nat → Option String} {given kept : List String} {n : Nat} {id : String}

theorem ledger_nil : Ledger (fun _ => none) [] [] where
  held_given _ _ h := by cases h
  held_not_kept _ _ h := by cases h
  held_once _ _ _ h := by cases h
  kept_given _ h := by cases h
  kept_nodup := List.nodup_nil

theorem Ledger.give (h : Ledger holder given kept) (n : Nat) (hid : id ∉ given) :
    Ledger (handOver holder n (some id)) (given ++ [id]) kept where
  held_given m k hm := by
    by_cases hmn : m = n
    · rw [hmn, handOver_self] at hm
      simp [Option.some.inj hm]
    · rw [handOver_of_ne holder hmn] at hm
      exact List.mem_append_left _ (h.held_given m k hm)
  held_not_kept m k hm := by
    by_cases hmn : m = n
    · rw [hmn, handOver_self] at hm
      obtain rfl := Option.some.inj hm
      exact fun hkept => hid (h.kept_given _ hkept)
    · rw [handOver_of_ne holder hmn] at hm
      exact h.held_not_kept m k hm
  held_once m m' k hm hm' := by
    -- An id that was held before was given out before, and the new one was not.
    have hnew : ∀ {m}, m ≠ n → handOver holder n (some id) m = some k → k ≠ id := by
      intro m hmn hm hk
      rw [handOver_of_ne holder hmn, hk] at hm
      exact hid (h.held_given m id hm)
    by_cases hmn : m = n <;> by_cases hmn' : m' = n
    · rw [hmn, hmn']
    · rw [hmn, handOver_self] at hm
      exact absurd (Option.some.inj hm).symm (hnew hmn' hm')
    · rw [hmn', handOver_self] at hm'
      exact absurd (Option.some.inj hm').symm (hnew hmn hm)
    · rw [handOver_of_ne holder hmn] at hm
      rw [handOver_of_ne holder hmn'] at hm'
      exact h.held_once m m' k hm hm'
  kept_given k hk := List.mem_append_left _ (h.kept_given k hk)
  kept_nodup := h.kept_nodup

/-- An id that is held no more, and may not be used again. -/
theorem Ledger.drop (h : Ledger holder given kept) (n : Nat) :
    Ledger (handOver holder n none) given kept where
  held_given m k hm := h.held_given m k (eq_of_handOver_none hm).2
  held_not_kept m k hm := h.held_not_kept m k (eq_of_handOver_none hm).2
  held_once m m' k hm hm' :=
    h.held_once m m' k (eq_of_handOver_none hm).2 (eq_of_handOver_none hm').2
  kept_given := h.kept_given
  kept_nodup := h.kept_nodup

theorem Ledger.keep (h : Ledger holder given kept) (hn : holder n = some id) :
    Ledger (handOver holder n none) given (kept ++ [id]) where
  held_given := (h.drop n).held_given
  held_not_kept m k hm hk := by
    obtain ⟨hmn, hm⟩ := eq_of_handOver_none hm
    rcases List.mem_append.mp hk with hk | hk
    · exact h.held_not_kept m k hm hk
    · obtain rfl := List.mem_singleton.mp hk
      exact hmn (h.held_once m n k hm hn)
  held_once := (h.drop n).held_once
  kept_given k hk := by
    rcases List.mem_append.mp hk with hk | hk
    · exact h.kept_given k hk
    · obtain rfl := List.mem_singleton.mp hk
      exact h.held_given n k hn
  kept_nodup := by
    rw [List.nodup_append]
    refine ⟨h.kept_nodup, by simp, ?_⟩
    rintro k hk _ hid rfl
    obtain rfl := List.mem_singleton.mp hid
    exact h.held_not_kept n k hn hk

/-- Every request stores only what it holds. -/
structure Custody (holder : Nat → Option String) (s : Traffic) (acts : List Act) : Prop where
  requests : ∀ n (p : Program Effect Http.Response), s.requests[n]? = some p →
    p.Holds (holder n) fun _ _ => True
  yetToArrive : ∀ n, s.requests.length ≤ n → holder n = none
  ledger : Ledger holder (drawn acts) (stored acts)

variable {d : Deployment} {s t : Traffic} {acts more : List Act}

theorem custody_of_idle (h : s.requests = []) : Custody (fun _ => none) s [] where
  requests n p hp := by
    rw [h] at hp
    cases hp
  yetToArrive _ _ := rfl
  ledger := ledger_nil

theorem Custody.arrive (h : Custody holder s acts) (req : Http.Request) :
    Custody holder { s with requests := s.requests ++ [d.serve req] } acts where
  requests n p hp := by
    rcases Nat.lt_trichotomy n s.requests.length with hlt | rfl | hgt
    · rw [List.getElem?_append_left hlt] at hp
      exact h.requests n p hp
    · rw [List.getElem?_concat_length] at hp
      obtain rfl := Option.some.inj hp
      rw [h.yetToArrive _ (Nat.le_refl _)]
      exact d.holds_serve req
    · rw [List.getElem?_append_right (Nat.le_of_lt hgt), List.getElem?_eq_none] at hp
      · cases hp
      · rw [List.length_singleton]
        omega
  yetToArrive n hn := by
    rw [List.length_append] at hn
    exact h.yetToArrive n (Nat.le_trans (Nat.le_add_right _ _) hn)
  ledger := h.ledger

theorem Custody.act (h : Custody holder s acts) {op : Effect β}
    {next : β → Program Effect Http.Response} (hn : s.requests[n]? = some (.ask op next))
    (time : Instant) (answer : β) (w : World)
    (hdrawn : (drawn (acts ++ [⟨n, time, op, answer⟩])).Nodup) :
    Custody (handOver holder n (op.heldAfter (holder n) answer))
      ⟨w, s.requests.set n (next answer)⟩ (acts ++ [⟨n, time, op, answer⟩]) where
  requests m p hp := by
    by_cases hmn : m = n
    · subst hmn
      have hlt := (List.getElem?_eq_some_iff.mp hn).1
      rw [List.getElem?_set_self hlt] at hp
      obtain rfl := Option.some.inj hp
      rw [handOver_self]
      exact (h.requests m _ hn).2 answer
    · rw [List.getElem?_set_ne (Ne.symm hmn)] at hp
      rw [handOver_of_ne holder hmn]
      exact h.requests m p hp
  yetToArrive m hm := by
    have hlt := (List.getElem?_eq_some_iff.mp hn).1
    rw [List.length_set] at hm
    rw [handOver_of_ne holder (by omega)]
    exact h.yetToArrive m hm
  ledger := by
    have hallowed := (h.requests n _ hn).1
    rw [drawn_concat] at hdrawn ⊢
    rw [stored_concat]
    cases op with
    | draw =>
      have hnew : Token.sessionId answer ∉ drawn acts := by
        intro hmem
        exact (List.nodup_append.mp hdrawn).2.2 _ hmem _ List.mem_cons_self rfl
      simpa [Act.drawn?, Act.stored?, Effect.heldAfter] using h.ledger.give n hnew
    | create id r lifetime =>
      cases answer with
      | ok => simpa [Act.drawn?, Act.stored?, Effect.heldAfter] using h.ledger.keep hallowed
      | error fault => simpa [Act.drawn?, Act.stored?, Effect.heldAfter] using h.ledger.drop n
    | _ => simpa [Act.drawn?, Act.stored?, Effect.heldAfter, handOver_same] using h.ledger

theorem Custody.step (h : Custody holder s acts) (hstep : Step d s more t)
    (hdrawn : (drawn (acts ++ more)).Nodup) : ∃ holder, Custody holder t (acts ++ more) := by
  cases hstep with
  | arrive _ req => exact ⟨holder, by simpa using h.arrive req⟩
  | pass _ clock wall hle => exact ⟨holder, by simpa using ⟨h.requests, h.yetToArrive, h.ledger⟩⟩
  | act _ n op next answer w hn hw => exact ⟨_, h.act hn _ answer w hdrawn⟩

theorem Run.custody (h : Run d s acts t) (hidle : s.requests = []) (hdrawn : (drawn acts).Nodup) :
    ∃ holder, Custody holder t acts := by
  induction h with
  | refl => exact ⟨_, custody_of_idle hidle⟩
  | step _ hstep ih =>
    have hbefore := hdrawn
    rw [drawn_append] at hbefore
    obtain ⟨holder, h⟩ := ih (List.nodup_append.mp hbefore).1
    exact h.step hstep hdrawn

/-- Where the ids given out differ, no session is stored twice. -/
theorem Run.stored_nodup (h : Run d s acts t) (hidle : s.requests = [])
    (hdrawn : (drawn acts).Nodup) : (stored acts).Nodup := by
  obtain ⟨holder, hcustody⟩ := h.custody hidle hdrawn
  exact hcustody.ledger.kept_nodup

end Traffic

end SessionGate
