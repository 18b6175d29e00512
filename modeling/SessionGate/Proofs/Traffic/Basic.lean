import SessionGate.Proofs.Service.Trace

/-!
Requests under way at the same time. A service takes steps: a request arrives, time goes on, or one
request has its next operation done. A run lists what was done, in order, so that "since" and "before"
are places in a list. `Run.took` gives back what one request did in a run of many.
-/

namespace SessionGate

/-- A service at work: its surroundings, and what is left to do for every request, each at the place
that it arrived in. -/
structure Traffic where
  world : World
  requests : List (Program Effect Http.Response)

namespace Traffic

inductive Step (d : Deployment) : Traffic → List Act → Traffic → Prop
  | arrive (s : Traffic) (req : Http.Request) :
      Step d s [] { s with requests := s.requests ++ [d.serve req] }
  /-- The clock never goes back. The time that events are stamped with is not tied to it. -/
  | pass (s : Traffic) (clock wall : Instant) (h : s.world.clock ≤ clock) :
      Step d s [] { s with world := { s.world with clock, wall } }
  | act (s : Traffic) (n : Nat) (op : Effect β) (next : β → Program Effect Http.Response)
      (answer : β) (w : World) (hn : s.requests[n]? = some (.ask op next))
      (hw : s.world.perform op = (.ok answer, w)) :
      Step d s [⟨n, s.world.clock, op, answer⟩] ⟨w, s.requests.set n (next answer)⟩

inductive Run (d : Deployment) : Traffic → List Act → Traffic → Prop
  | refl (s : Traffic) : Run d s [] s
  | step {s t u : Traffic} {acts more : List Act} (h : Run d s acts t) (hstep : Step d t more u) :
      Run d s (acts ++ more) u

variable {d : Deployment} {s t u : Traffic} {acts more : List Act}

theorem Step.run (h : Step d s acts t) : Run d s acts t := .step (.refl s) h

theorem Run.trans (h : Run d s acts t) (h' : Run d t more u) : Run d s (acts ++ more) u := by
  induction h' with
  | refl => simpa using h
  | step _ hstep ih =>
    rw [← List.append_assoc]
    exact .step ih hstep

theorem Step.length_le (h : Step d s acts t) : acts.length ≤ 1 := by
  cases h <;> simp

/-- Every act of a run is one of its steps. -/
theorem Run.split_act {a : Act} (h : Run d s (acts ++ a :: more) u) :
    ∃ t v, Run d s acts t ∧ Step d t [a] v ∧ Run d v more u := by
  generalize hall : acts ++ a :: more = all at h
  induction h generalizing more with
  | refl => cases List.append_ne_nil_of_right_ne_nil acts (List.cons_ne_nil a more) hall
  | @step t u earlier last hrun hstep ih =>
    have hlen := hstep.length_le
    rcases List.append_eq_append_iff.mp hall with ⟨between, rfl, hlast⟩ | ⟨between, rfl, hlast⟩
    · cases between with
      | nil =>
        obtain rfl : a :: more = last := hlast
        obtain rfl : more = [] := List.length_eq_zero_iff.mp (by rw [List.length_cons] at hlen; omega)
        exact ⟨t, u, by simpa using hrun, hstep, .refl u⟩
      | cons b between =>
        obtain ⟨rfl, rfl⟩ := List.cons.inj hlast
        obtain ⟨v, w, hv, ha, hw⟩ := ih rfl
        exact ⟨v, w, hv, ha, .step hw hstep⟩
    · rw [hlast, List.length_append, List.length_cons] at hlen
      obtain rfl : between = [] := List.length_eq_zero_iff.mp (by omega)
      obtain rfl : more = [] := List.length_eq_zero_iff.mp (by omega)
      obtain rfl : last = [a] := hlast
      exact ⟨t, u, by simpa using hrun, hstep, .refl u⟩

theorem Step.clock_le (h : Step d s acts t) : s.world.clock ≤ t.world.clock := by
  cases h with
  | arrive _ req => exact Int.le_refl _
  | pass _ clock wall h => exact h
  | act _ n op next answer w hn hw =>
    have hsame := (s.world.sameSetting_perform op).clock
    rw [hw] at hsame
    exact Int.le_of_eq (congrArg Instant.nanos hsame.symm)

theorem Step.storeWorks (h : Step d s acts t) (hworks : s.world.StoreWorks) :
    t.world.StoreWorks := by
  cases h with
  | arrive _ req => exact hworks
  | pass _ clock wall h => exact ⟨hworks.create, hworks.read, hworks.delete⟩
  | act _ n op next answer w hn hw =>
    have hsame := s.world.sameSetting_perform op
    rw [hw] at hsame
    exact hsame.storeWorks hworks

theorem Run.clock_le (h : Run d s acts t) : s.world.clock ≤ t.world.clock := by
  induction h with
  | refl => exact Int.le_refl _
  | step _ hstep ih => exact Int.le_trans ih hstep.clock_le

theorem Run.storeWorks (h : Run d s acts t) (hworks : s.world.StoreWorks) :
    t.world.StoreWorks := by
  induction h with
  | refl => exact hworks
  | step _ hstep ih => exact hstep.storeWorks ih

theorem Step.took (h : Step d s acts t) {n : Nat} {p : Program Effect Http.Response}
    (hp : s.requests[n]? = some p) :
    ∃ q, t.requests[n]? = some q ∧ p.Took n (acts.filter (·.request = n)) q := by
  cases h with
  | arrive _ req =>
    have hlt := (List.getElem?_eq_some_iff.mp hp).1
    exact ⟨p, (List.getElem?_append_left hlt).trans hp, .nil p⟩
  | pass _ clock wall h => exact ⟨p, hp, .nil p⟩
  | act _ m op next answer w hm hw =>
    by_cases hmn : m = n
    · subst hmn
      obtain rfl : Program.ask op next = p := Option.some.inj (hm.symm.trans hp)
      have hlt := (List.getElem?_eq_some_iff.mp hp).1
      refine ⟨next answer, by simp [hlt], ?_⟩
      simpa using .cons (.nil (next answer))
    · refine ⟨p, by simpa [List.getElem?_set_ne hmn] using hp, ?_⟩
      simpa [hmn] using .nil p

theorem Run.took (h : Run d s acts t) {n : Nat} {p : Program Effect Http.Response}
    (hp : s.requests[n]? = some p) :
    ∃ q, t.requests[n]? = some q ∧ p.Took n (acts.filter (·.request = n)) q := by
  induction h with
  | refl => exact ⟨p, hp, .nil p⟩
  | step _ hstep ih =>
    obtain ⟨q, hq, htook⟩ := ih
    obtain ⟨r, hr, htook'⟩ := hstep.took hq
    refine ⟨r, hr, ?_⟩
    rw [List.filter_append]
    exact htook.append htook'

/-- A request may have all that it is at done right after one another. -/
theorem Run.of_did {n : Nat} {p q : Program Effect Http.Response} {w : World}
    (htook : p.Took n acts q) (hn : s.requests[n]? = some p) (hdid : s.world.Did n acts w) :
    Run d s acts ⟨w, s.requests.set n q⟩ := by
  induction htook generalizing s with
  | nil p =>
    cases hdid
    have hself : s.requests.set n p = s.requests := by
      obtain ⟨hlt, rfl⟩ := List.getElem?_eq_some_iff.mp hn
      exact List.set_getElem_self hlt
    rw [hself]
    exact .refl s
  | @cons β op next time answer acts q htook ih =>
    cases hdid with
    | cons hop hdid =>
      have hlt := (List.getElem?_eq_some_iff.mp hn).1
      have hstep := Step.act (d := d) s n op next answer _ hn hop
      have hrest := ih (s := ⟨_, s.requests.set n (next answer)⟩) (List.getElem?_set_self hlt) hdid
      rw [List.set_set] at hrest
      exact hstep.run.trans hrest

theorem Run.of_serve {req : Http.Request} {response : Http.Response} {w : World}
    (h : s.world.serve d req = (.ok response, w)) : ∃ acts,
      (d.serve req).Took s.requests.length acts (.done response) ∧
      s.world.Did s.requests.length acts w ∧ Run d s acts ⟨w, s.requests ++ [.done response]⟩ := by
  obtain ⟨acts, htook, hdid⟩ := World.exists_did_of_run s.requests.length h
  refine ⟨acts, htook, hdid, ?_⟩
  have harrive : Step d s [] { s with requests := s.requests ++ [d.serve req] } := .arrive s req
  have hserve : Run d { s with requests := s.requests ++ [d.serve req] } acts _ :=
    .of_did htook List.getElem?_concat_length hdid
  simpa using harrive.run.trans hserve

end Traffic

end SessionGate
