import SessionGate.Host.System

/-!
Running a program against a system: what it asks, one request after another, and how a run and its
requests split where programs are composed.
-/

namespace SessionGate.Host.System

variable {s t : System}

theorem run_ask (op : Request β) (next : β → Program Request α) (s : System) :
    s.run (.ask op next) = (s.perform op).2.run (next (s.perform op).1) := rfl

theorem run_bind (s : System) (p : Program Request α) (f : α → Program Request β) :
    s.run (p >>= f) = (s.run p).2.run (f (s.run p).1) :=
  congrFun (Program.run_bind handle p f) s

theorem perform_read {path : String} {answer : Except FileFault String}
    (h : s.files.read s.here path = answer) : s.perform (.read path) = (answer, s) :=
  congrArg (fun answer => (answer, s)) h

/-- The requests of a run, in order. -/
def asked (s : System) : Program Request α → List (Sigma Request)
  | .done _ => []
  | .ask op next => ⟨_, op⟩ :: asked (s.perform op).2 (next (s.perform op).1)

theorem asked_bind (s : System) (p : Program Request α) (f : α → Program Request β) :
    s.asked (p >>= f) = s.asked p ++ (s.run p).2.asked (f (s.run p).1) := by
  induction p generalizing s with
  | done a => rfl
  | ask op next ih => exact congrArg (List.cons _) (ih _ _)

section

variable {ε : Type} {p : ExceptT ε (Program Request) α} (f : α → ExceptT ε (Program Request) β)

theorem run_lift (op : Request α) {a : α} (h : s.perform op = (a, t)) :
    s.run (ExceptT.lift (Program.perform op) : ExceptT ε (Program Request) α).run = (.ok a, t) :=
  congrArg (fun r => (Except.ok r.1, r.2)) h

theorem run_bind_ok {a : α} (h : s.run p = (.ok a, t)) : s.run (p >>= f).run = t.run (f a) := by
  refine (run_bind s p _).trans ?_
  rw [h]
  rfl

theorem run_bind_error {e : ε} (h : s.run p = (.error e, t)) :
    s.run (p >>= f).run = (.error e, t) := by
  refine (run_bind s p _).trans ?_
  rw [h]
  rfl

variable {f} in
/-- What comes to a good end came to one at each of its parts. -/
theorem exists_of_run_bind {b : β} {t : System} (h : s.run (p >>= f).run = (.ok b, t)) :
    ∃ a between, s.run p = (.ok a, between) ∧ between.run (f a) = (.ok b, t) := by
  cases hp : s.run p with
  | mk answer between =>
    cases answer with
    | error e => cases (run_bind_error f hp).symm.trans h
    | ok a => exact ⟨a, between, rfl, (run_bind_ok f hp).symm.trans h⟩

theorem asked_bind_ok {a : α} (h : s.run p = (.ok a, t)) :
    s.asked (p >>= f).run = s.asked p ++ t.asked (f a) := by
  refine (asked_bind s p _).trans ?_
  rw [h]
  rfl

theorem asked_bind_error {e : ε} (h : s.run p = (.error e, t)) :
    s.asked (p >>= f).run = s.asked p := by
  refine (asked_bind s p _).trans ?_
  rw [h]
  exact List.append_nil _

end

end SessionGate.Host.System
