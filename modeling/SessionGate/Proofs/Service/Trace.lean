import SessionGate.Proofs.Service.Live

/-!
Traces: what a program asked for and was answered, one act after another. `Program.Took` says which
acts a program can do, `World.Did` which ones a world performs; a run to the end does both.
-/

namespace SessionGate

/-- An operation that was done: for which request, when, and with which answer. -/
structure Act : Type 1 where
  request : Nat
  time : Instant
  {β : Type}
  op : Effect β
  answer : β

namespace Act

def drawn? : Act → Option String
  | ⟨_, _, .draw, number⟩ => some (Token.sessionId number)
  | _ => none

def stored? : Act → Option String
  | ⟨_, _, .create id _ _, .ok ()⟩ => some id
  | _ => none

def deleted? : Act → Option String
  | ⟨_, _, .delete id, .ok ()⟩ => some id
  | _ => none

def looked? : Act → Option (String × Except Session.StoreFault Session.Stored)
  | ⟨_, _, .read id, answer⟩ => some (id, answer)
  | _ => none

end Act

/-- Session ids given out, in order. -/
def drawn (acts : List Act) : List String := acts.filterMap Act.drawn?

def stored (acts : List Act) : List String := acts.filterMap Act.stored?

def deleted (acts : List Act) : List String := acts.filterMap Act.deleted?

/-- Sessions looked up, each with the answer of the store. -/
def looked (acts : List Act) : List (String × Except Session.StoreFault Session.Stored) :=
  acts.filterMap Act.looked?

theorem filterMap_concat (f : α → Option β) (xs : List α) (x : α) :
    (xs ++ [x]).filterMap f = xs.filterMap f ++ (f x).toList := by
  rw [List.filterMap_append]
  cases h : f x <;> simp [h]

theorem drawn_concat (acts : List Act) (a : Act) :
    drawn (acts ++ [a]) = drawn acts ++ a.drawn?.toList := filterMap_concat _ acts a

theorem stored_concat (acts : List Act) (a : Act) :
    stored (acts ++ [a]) = stored acts ++ a.stored?.toList := filterMap_concat _ acts a

theorem drawn_append (acts more : List Act) : drawn (acts ++ more) = drawn acts ++ drawn more :=
  List.filterMap_append ..

theorem stored_append (acts more : List Act) :
    stored (acts ++ more) = stored acts ++ stored more := List.filterMap_append ..

theorem deleted_append (acts more : List Act) :
    deleted (acts ++ more) = deleted acts ++ deleted more := List.filterMap_append ..

/-- The clock was told as it was. -/
def Act.Timely : Act → Prop
  | ⟨_, time, .now, answer⟩ => answer = time
  | _ => True

def AllAt (time : Instant) (acts : List Act) : Prop := ∀ a ∈ acts, a.time = time ∧ a.Timely

/-- A program does some acts, all of them for one request, and comes to what is left of it. -/
inductive Program.Took {α : Type} (n : Nat) : Program Effect α → List Act → Program Effect α → Prop
  | nil (p : Program Effect α) : Took n p [] p
  | cons {op : Effect β} {next : β → Program Effect α} {time : Instant} {answer : β}
      {acts : List Act} {q : Program Effect α} (h : Took n (next answer) acts q) :
      Took n (.ask op next) (⟨n, time, op, answer⟩ :: acts) q

/-- A world performs some acts, all of them for one request, and comes to another world. -/
inductive World.Did (n : Nat) : World → List Act → World → Prop
  | nil (w : World) : Did n w [] w
  | cons {u v w : World} {op : Effect β} {answer : β} {acts : List Act}
      (hop : u.perform op = (.ok answer, v)) (h : Did n v acts w) :
      Did n u (⟨n, u.clock, op, answer⟩ :: acts) w

namespace Program

variable {n : Nat} {acts more : List Act}

theorem Took.append {p q r : Program Effect α} (h : p.Took n acts q) (h' : q.Took n more r) :
    p.Took n (acts ++ more) r := by
  induction h with
  | nil p => exact h'
  | cons _ ih => exact .cons (ih h')

theorem took_done {a b : α} (h : (done a).Took n acts (.done b)) : acts = [] ∧ a = b := by
  cases h
  exact ⟨rfl, rfl⟩

theorem took_ask {op : Effect β} {next : β → Program Effect α} {b : α}
    (h : (ask op next).Took n acts (.done b)) :
    ∃ time answer rest, acts = ⟨n, time, op, answer⟩ :: rest ∧
      (next answer).Took n rest (.done b) := by
  cases h with
  | cons h => exact ⟨_, _, _, rfl, h⟩

theorem took_bind {p : Program Effect α} {f : α → Program Effect β} {b : β}
    (h : (p >>= f).Took n acts (.done b)) : ∃ a first rest, acts = first ++ rest ∧
      p.Took n first (.done a) ∧ (f a).Took n rest (.done b) := by
  induction p generalizing acts with
  | done a => exact ⟨a, [], acts, rfl, .nil _, h⟩
  | ask op next ih =>
    obtain ⟨time, answer, rest, rfl, hrest⟩ := took_ask h
    obtain ⟨a, first, last, rfl, hfirst, hlast⟩ := ih answer hrest
    exact ⟨a, _ :: first, last, rfl, .cons hfirst, hlast⟩

theorem took_serve_bind {s : Serve α} {f : α → Serve β} {b : β}
    (h : (s >>= f).run.Took n acts (.done (.ok b))) : ∃ a first rest, acts = first ++ rest ∧
      s.run.Took n first (.done (.ok a)) ∧ (f a).run.Took n rest (.done (.ok b)) := by
  obtain ⟨result, first, rest, rfl, hfirst, hrest⟩ :=
    took_bind (p := s.run) (f := ExceptT.bindCont f) h
  cases result with
  | ok a => exact ⟨a, first, rest, rfl, hfirst, hrest⟩
  | error r =>
    obtain ⟨-, h⟩ := took_done (a := (Except.error r : Except Refusal β)) hrest
    cases h

theorem took_serve_perform {op : Effect α} {a : α}
    (h : (Serve.perform op).run.Took n acts (.done (.ok a))) :
    ∃ time, acts = [⟨n, time, op, a⟩] := by
  obtain ⟨time, answer, rest, rfl, hrest⟩ := took_ask h
  obtain ⟨rfl, hanswer⟩ := took_done (a := (Except.ok answer : Except Refusal α)) hrest
  obtain rfl := Except.ok.inj hanswer
  exact ⟨time, rfl⟩

end Program

theorem AllAt.of_append {time : Instant} {acts more : List Act} (h : AllAt time (acts ++ more)) :
    AllAt time acts ∧ AllAt time more :=
  ⟨fun a ha => h a (List.mem_append_left _ ha), fun a ha => h a (List.mem_append_right _ ha)⟩

namespace World

variable {n : Nat} {acts : List Act} {w w' : World}

theorem timely_of_perform {op : Effect β} {answer : β} (h : w.perform op = (.ok answer, w')) :
    Act.Timely ⟨n, w.clock, op, answer⟩ := by
  cases op with
  | now => exact (Except.ok.inj (congrArg Prod.fst h)).symm
  | _ => trivial

theorem Did.clock_eq (h : w.Did n acts w') : w'.clock = w.clock := by
  induction h with
  | nil w => rfl
  | @cons _ u v w op answer acts hop _ ih =>
    have hsame := (u.sameSetting_perform op).clock
    rw [hop] at hsame
    exact ih.trans hsame

theorem Did.allAt (h : w.Did n acts w') : AllAt w.clock acts := by
  induction h with
  | nil w => intro a ha; cases ha
  | @cons _ u v w op answer acts hop _ ih =>
    intro a ha
    rcases List.mem_cons.mp ha with rfl | ha
    · exact ⟨rfl, timely_of_perform hop⟩
    · have hsame := (u.sameSetting_perform op).clock
      rw [hop] at hsame
      exact hsame ▸ ih a ha

theorem Did.head {time : Instant} {op : Effect β} {answer : β}
    (h : w.Did n (⟨n, time, op, answer⟩ :: acts) w') :
    ∃ v, w.perform op = (.ok answer, v) ∧ v.Did n acts w' := by
  cases h with
  | cons hop h => exact ⟨_, hop, h⟩

theorem did_append {more : List Act} (h : w.Did n (acts ++ more) w') :
    ∃ v, w.Did n acts v ∧ v.Did n more w' := by
  induction acts generalizing w with
  | nil => exact ⟨w, .nil w, h⟩
  | cons a acts ih =>
    cases h with
    | cons hop h =>
      obtain ⟨v, hacts, hmore⟩ := ih h
      exact ⟨v, .cons hop hacts, hmore⟩

theorem Did.sameSessions (h : w.Did n acts w') (hacts : ∀ a ∈ acts, ¬ a.op.IsWrite) :
    w.SameSessions w' := by
  induction h with
  | nil w => exact .refl w
  | @cons _ u v w op answer acts hop _ ih =>
    rw [List.forall_mem_cons] at hacts
    have hsame := u.sameSessions_perform hacts.1
    rw [hop] at hsame
    exact hsame.trans (ih hacts.2)

theorem exists_did_of_run (n : Nat) {p : Program Effect α} {a : α} (h : w.run p = (.ok a, w')) :
    ∃ acts, p.Took n acts (.done a) ∧ w.Did n acts w' := by
  induction p generalizing w with
  | done b =>
    obtain ⟨hb, rfl⟩ := Prod.mk.inj h
    obtain rfl := Except.ok.inj hb
    exact ⟨[], .nil _, .nil _⟩
  | ask op next ih =>
    rw [run_ask] at h
    cases hop : w.perform op with
    | mk result u =>
      rw [hop] at h
      cases result with
      | error past => cases h
      | ok answer =>
        obtain ⟨acts, htook, hdid⟩ := ih answer h
        exact ⟨_ :: acts, .cons htook, .cons hop hdid⟩

end World

end SessionGate
