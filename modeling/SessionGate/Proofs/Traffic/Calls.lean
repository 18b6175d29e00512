import SessionGate.Proofs.Service.Lockstep

/-!
A service at work on calls of every kind, requests among them, for runs that are compared with each
other. A move says all that is left open: which call arrives, what the clocks show, which operations
fail and whose turn it is; so a run is a function of its moves. Main statement: `Service.Beside.step`,
a move keeps two services side by side.
-/

namespace SessionGate

/-- A request to the router, or a call of what is behind it. -/
inductive Call
  | request (req : Http.Request)
  | authenticate (c : Credentials)
  | login (c : Credentials)
  | createToken (subject : Int64)
  | verifyToken (token : String)
  | persist (profile : Profile) (issued : Token.Issued)
  | invalidate (session : String)
  | resolve (session : String)
  | revealsUnknownUsers

inductive Answer
  | response (response : Http.Response)
  | profile (result : Except Refusal Profile)
  | login (result : Except Refusal Login)
  | issued (result : Except Refusal Token.Issued)
  | claims (result : Except Refusal Token.Claims)
  | finished (result : Except Refusal Unit)
  | identity (result : Except Refusal Identity)
  | reveals (reveals : Bool)
  /-- The call was cut short, past the end of the calendar. -/
  | cut

namespace Call

/-- The credentials that a call may come to check. -/
def credentials? : Call → Option Credentials
  | request req => (Deployment.readCredentials req).toOption
  | authenticate c | login c => some c
  | _ => none

/-- What a call makes of a refusal of credentials. -/
def hide (d : Deployment) : Call → Refusal → Refusal
  | authenticate _ => id
  | _ => d.hideUnknown

inductive SameButPassword : Call → Call → Prop
  | request {req req' : Http.Request} (h : req.SameButPassword req') :
      SameButPassword (.request req) (.request req')
  | authenticate {c c' : Credentials} (h : c.username = c'.username) :
      SameButPassword (.authenticate c) (.authenticate c')
  | login {c c' : Credentials} (h : c.username = c'.username) :
      SameButPassword (.login c) (.login c')
  | refl (c : Call) : SameButPassword c c

end Call

def Deployment.respond (d : Deployment) : Call → Program Effect Answer
  | .request req => do return .response (← d.serve req)
  | .authenticate c => do return .profile (← (authenticate c.username c.password).run)
  | .login c => do return .login (← (d.login c).run)
  | .createToken subject => do return .issued (← (d.createToken subject).run)
  | .verifyToken token => do return .claims (← (d.verifyToken token).run)
  | .persist profile issued => do return .finished (← (persist profile issued).run)
  | .invalidate session => do return .finished (← (invalidate session).run)
  | .resolve session => do return .identity (← (d.resolve session).run)
  | .revealsUnknownUsers => return .reveals d.revealUnknownUsers

/-- A call under way, with what is left to do for it. -/
structure Task where
  call : Call
  rest : Program Effect Answer

def Task.answer? : Task → Option Answer
  | ⟨_, .done answer⟩ => some answer
  | _ => none

inductive Move
  | arrive (call : Call)
  | turn (clock wall : Instant) (faults : Faults)
  /-- The call that arrived as the `n`-th has its next operation done. -/
  | act (n : Nat)

structure Service where
  world : World
  tasks : List Task

/-- All that there is to see of a service: its surroundings without the accounts, and the answers that
were given so far. -/
structure Sight where
  world : World
  answers : List (Option Answer)

namespace Service

def step (d : Deployment) (s : Service) : Move → Service
  | .arrive call => { s with tasks := s.tasks ++ [⟨call, d.respond call⟩] }
  | .turn clock wall faults => { s with world := { s.world with clock, wall, faults } }
  | .act n => match s.tasks[n]? with
    | some ⟨call, .ask op next⟩ => match s.world.perform op with
      | (.ok answer, world) => ⟨world, s.tasks.set n ⟨call, next answer⟩⟩
      | (.error _, world) => ⟨world, s.tasks.set n ⟨call, .done .cut⟩⟩
    | _ => s

/-- A service in the course of a run: before the first move, and after every move. -/
def states (d : Deployment) (s : Service) : List Move → List Service
  | [] => [s]
  | m :: moves => s :: (s.step d m).states d moves

def sight (s : Service) : Sight :=
  ⟨{ s.world with directory := .empty }, s.tasks.map Task.answer?⟩

end Service

def Sight.withoutNotes (s : Sight) : Sight := { s with world := { s.world with notes := [] } }

/-- Surroundings with two directories, in which notes were taken that are alike. -/
structure World.Beside (alike : Note → Note → Prop) (dir dir' : Directory) (w w' : World) :
    Prop where
  accounts : w.directory = dir
  rest : w' = { w with directory := dir', notes := w'.notes }
  notes : List.Forall₂ alike w.notes w'.notes

namespace World

variable {alike : Note → Note → Prop} {dir dir' : Directory} {w w' : World}

theorem perform_with (w : World) {op : Effect β} (hfind : ¬ op.IsFind) (hnote : ¬ op.IsNote)
    (dir : Directory) (notes : List Note) :
    { w with directory := dir, notes }.perform op =
      ((w.perform op).1, { (w.perform op).2 with directory := dir, notes }) := by
  cases op with
  | find | note => first | exact absurd trivial hfind | exact absurd trivial hnote
  | create id r lifetime =>
    simp only [perform, create]
    cases w.faults.create with
    | some fault => rfl
    | none =>
      cases w.store.create w.clock id r lifetime with
      | ok store => rfl
      | error fault => cases fault <;> rfl
  | read id =>
    simp only [perform, read]
    cases w.faults.read <;> rfl
  | delete id =>
    simp only [perform, delete]
    cases w.faults.delete <;> rfl
  | _ => rfl

theorem notes_perform (w : World) {op : Effect β} (hnote : ¬ op.IsNote) :
    (w.perform op).2.notes = w.notes := by
  by_cases hfind : op.IsFind
  · cases op <;> first | rfl | cases hfind
  · exact congrArg (fun result => result.2.notes) (w.perform_with hfind hnote w.directory w.notes)

theorem Beside.perform (h : Beside alike dir dir' w w') {op : Effect β} (hfind : ¬ op.IsFind)
    (hnote : ¬ op.IsNote) : (w.perform op).1 = (w'.perform op).1 ∧
      Beside alike dir dir' (w.perform op).2 (w'.perform op).2 := by
  obtain ⟨rfl, hrest, hnotes⟩ := h
  rw [hrest, w.perform_with hfind hnote dir' w'.notes]
  refine ⟨rfl, (w.sameSetting_perform op).directory, rfl, ?_⟩
  rw [w.notes_perform hnote]
  exact hnotes

theorem Beside.note (h : Beside alike dir dir' w w') {n n' : Note} (hn : alike n n') :
    Beside alike dir dir' (w.perform (.note n)).2 (w'.perform (.note n')).2 := by
  obtain ⟨rfl, hrest, hnotes⟩ := h
  refine ⟨rfl, ?_, List.rel_append hnotes (.cons hn .nil)⟩
  rw [hrest]
  rfl

theorem Beside.turn (h : Beside alike dir dir' w w') (clock wall : Instant) (faults : Faults) :
    Beside alike dir dir' { w with clock, wall, faults } { w' with clock, wall, faults } := by
  obtain ⟨rfl, hrest, hnotes⟩ := h
  refine ⟨rfl, ?_, hnotes⟩
  rw [hrest]

end World

theorem rel_getElem? {R : α → β → Prop} {l : List α} {l' : List β} (h : List.Forall₂ R l l')
    (n : Nat) : Option.Rel R l[n]? l'[n]? := by
  induction h generalizing n with
  | nil => exact .none
  | cons hab _ ih =>
    cases n with
    | zero => exact .some hab
    | succ n => exact ih n

theorem forall₂_set {R : α → β → Prop} {l : List α} {l' : List β} (h : List.Forall₂ R l l')
    (n : Nat) {a : α} {b : β} (hab : R a b) : List.Forall₂ R (l.set n a) (l'.set n b) := by
  induction h generalizing n with
  | nil => exact .nil
  | cons hcd h ih =>
    cases n with
    | zero => exact .cons hab h
    | succ n => exact .cons hcd (ih n)

/-- What two calls may be and may find, for them to go side by side. -/
structure Pairing where
  alike : Note → Note → Prop
  calls : Call → Call → Prop
  found : Call → Call → String → Found → Found → Prop

structure Pairing.Sound (k : Pairing) (d : Deployment) : Prop where
  note : ∀ n, k.alike n n
  password : ∀ c c', k.calls c c' → c.SameButPassword c'
  told : ∀ call call', k.calls call call' → ∀ c c', call.credentials? = some c →
    call'.credentials? = some c' → ∀ f f', k.found call call' c.username f f' →
      f.ToldAlike k.alike (call.hide d) c.password c'.password f'

/-- Moves that differ in the calls that arrive only. -/
inductive Move.Beside (calls : Call → Call → Prop) : Move → Move → Prop
  | arrive {c c' : Call} (h : calls c c') : Beside calls (.arrive c) (.arrive c')
  | turn (clock wall : Instant) (faults : Faults) :
      Beside calls (.turn clock wall faults) (.turn clock wall faults)
  | act (n : Nat) : Beside calls (.act n) (.act n)

structure Task.Beside (k : Pairing) (t t' : Task) : Prop where
  calls : k.calls t.call t'.call
  rest : t.rest.InStep k.alike (k.found t.call t'.call) t'.rest

structure Service.Beside (k : Pairing) (dir dir' : Directory) (s s' : Service) : Prop where
  world : s.world.Beside k.alike dir dir' s'.world
  tasks : List.Forall₂ (Task.Beside k) s.tasks s'.tasks

theorem Deployment.inStep_respond {k : Pairing} {d : Deployment} (hk : k.Sound d) {c c' : Call}
    (h : k.calls c c') : (d.respond c).InStep k.alike (k.found c c') (d.respond c') := by
  have hself : ∀ {α : Type} {p : Program Effect α}, (p.Only fun op => ¬ op.IsFind) →
      p.InStep k.alike (k.found c c') p := Program.inStep_self hk.note
  have htold := hk.told c c' h
  cases hk.password c c' h with
  | @request req req' hreq =>
    refine (inStep_serve hk.note hreq fun cr cr' hcr hcr' => ?_).bind fun _ => .done _
    exact htold cr cr' (congrArg Except.toOption hcr) (congrArg Except.toOption hcr')
  | authenticate husername =>
    exact (inStep_authenticate husername (htold _ _ rfl rfl)).bind fun _ => .done _
  | login husername =>
    exact (inStep_login hk.note husername (htold _ _ rfl rfl)).bind fun _ => .done _
  | refl =>
    cases c with
    | request req =>
      refine (inStep_serve hk.note ⟨rfl, rfl, rfl, rfl⟩ fun cr cr' hcr hcr' => ?_).bind
        fun _ => .done _
      exact htold cr cr' (congrArg Except.toOption hcr) (congrArg Except.toOption hcr')
    | authenticate cr => exact (inStep_authenticate rfl (htold cr cr rfl rfl)).bind fun _ => .done _
    | login cr => exact (inStep_login hk.note rfl (htold cr cr rfl rfl)).bind fun _ => .done _
    | createToken subject =>
      exact (hself (d.only_createToken id id id subject)).bind fun _ => .done _
    | verifyToken token =>
      refine (hself ?_).bind fun _ => .done _
      exact Program.only_serve_bind (Program.only_serve_perform id) fun _ => trivial
    | persist profile issued =>
      refine (hself ?_).bind fun _ => .done _
      exact only_persist id (fun _ _ _ => id) (fun _ => id) profile issued
    | invalidate session =>
      refine (hself ?_).bind fun _ => .done _
      exact only_invalidate (fun _ => id) (fun _ => id) session
    | resolve session =>
      refine (hself ?_).bind fun _ => .done _
      exact d.only_resolve (fun _ => id) (fun _ => id) session
    | revealsUnknownUsers => exact .done _

namespace Service

variable {k : Pairing} {d : Deployment} {dir dir' : Directory} {s s' : Service} {m m' : Move}

/-- What a move looks up in the directory, and for which call. -/
def lookup? (s : Service) : Move → Option (Call × String)
  | .act n => match s.tasks[n]? with
    | some ⟨call, .ask (.find username) _⟩ => some (call, username)
    | _ => none
  | _ => none

theorem Beside.answers (h : Beside k dir dir' s s') :
    s.tasks.map Task.answer? = s'.tasks.map Task.answer? := by
  have hsame : ∀ t t', Task.Beside k t t' → t.answer? = t'.answer? := by
    rintro ⟨c, rest⟩ ⟨c', rest'⟩ ⟨-, hrest⟩
    cases hrest <;> rfl
  rw [← List.forall₂_eq_eq_eq, List.forall₂_map_left_iff, List.forall₂_map_right_iff]
  exact h.tasks.imp hsame

theorem Beside.withoutNotes (h : Beside k dir dir' s s') :
    s.sight.withoutNotes = s'.sight.withoutNotes := by
  rw [sight, sight, h.answers, h.world.rest]
  rfl

theorem Beside.sight (h : Beside k dir dir' s s') (hnotes : s.world.notes = s'.world.notes) :
    s.sight = s'.sight := by
  rw [Service.sight, Service.sight, h.answers, h.world.rest, ← hnotes]

theorem Beside.set (h : Beside k dir dir' s s') {w w' : World}
    (hw : w.Beside k.alike dir dir' w') (n : Nat) {t t' : Task} (ht : t.Beside k t') :
    Beside k dir dir' ⟨w, s.tasks.set n t⟩ ⟨w', s'.tasks.set n t'⟩ :=
  ⟨hw, forall₂_set h.tasks n ht⟩

/-- Two services stay side by side if what both look up in a move is what they may find. -/
theorem Beside.step (hk : k.Sound d) (h : Beside k dir dir' s s') (hm : m.Beside k.calls m')
    (hfound : ∀ c c' u, k.calls c c' → s.lookup? m = some (c, u) → s'.lookup? m' = some (c', u) →
      k.found c c' u (s.world.find u) (s'.world.find u)) :
    Beside k dir dir' (s.step d m) (s'.step d m') := by
  cases hm with
  | arrive hc =>
    exact ⟨h.world, List.rel_append h.tasks (.cons ⟨hc, d.inStep_respond hk hc⟩ .nil)⟩
  | turn clock wall faults => exact ⟨h.world.turn clock wall faults, h.tasks⟩
  | act n =>
    have htask := rel_getElem? h.tasks n
    unfold Service.step
    unfold lookup? at hfound
    dsimp only at hfound ⊢
    revert htask hfound
    generalize s.tasks[n]? = t, s'.tasks[n]? = t'
    rintro hfound (@⟨⟨c, rest⟩, ⟨c', rest'⟩, hc, hrest⟩ | _)
    · dsimp only at hc hrest
      cases hrest with
      | done a => exact h
      | note hn hnext => exact h.set (h.world.note hn) n ⟨hc, hnext⟩
      | find username hnext =>
        exact h.set h.world n ⟨hc, hnext _ _ (hfound c c' username hc rfl rfl)⟩
      | shared op hfind hnote hnext =>
        obtain ⟨hanswer, hworld⟩ := h.world.perform hfind hnote
        dsimp only
        revert hanswer hworld
        obtain ⟨answer, w⟩ := s.world.perform op
        obtain ⟨answer', w'⟩ := s'.world.perform op
        rintro ⟨⟩ hworld
        cases answer with
        | ok b => exact h.set hworld n ⟨hc, hnext b⟩
        | error past => exact h.set hworld n ⟨hc, .done _⟩
    · exact h

end Service

end SessionGate
