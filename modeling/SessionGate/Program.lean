/-!
Programs that ask their surroundings for operations: a tree of requests and of what to do with each
answer. The same program runs against any surroundings that can perform its operations, one after
another or taking turns with other programs.
-/

namespace SessionGate

/-- A computation of an `α` that may ask for operations `Op β`, each answered with a `β`. -/
inductive Program (Op : Type → Type) (α : Type) : Type 1
  | done (a : α) : Program Op α
  | ask {β : Type} (op : Op β) (next : β → Program Op α) : Program Op α

namespace Program

variable {Op : Type → Type}

def andThen : Program Op α → (α → Program Op β) → Program Op β
  | done a, f => f a
  | ask op next, f => ask op fun b => (next b).andThen f

instance : Monad (Program Op) where
  pure := done
  bind := andThen

def perform (op : Op α) : Program Op α := ask op done

def run {m : Type → Type} [Monad m] (handle : {β : Type} → Op β → m β) : Program Op α → m α
  | done a => pure a
  | ask op next => do
    let b ← handle op
    (next b).run handle

@[simp] theorem andThen_done (p : Program Op α) : p.andThen done = p := by
  induction p with
  | done a => rfl
  | ask op next ih => simp only [andThen, ih]

@[simp] theorem andThen_assoc (p : Program Op α) (f : α → Program Op β) (g : β → Program Op γ) :
    (p.andThen f).andThen g = p.andThen fun a => (f a).andThen g := by
  induction p with
  | done a => rfl
  | ask op next ih => simp only [andThen, ih]

instance : LawfulMonad (Program Op) := LawfulMonad.mk' (Program Op)
  (fun p => andThen_done p) (fun _ _ => rfl) (fun p f g => andThen_assoc p f g)

theorem run_bind {m : Type → Type} [Monad m] [LawfulMonad m] (handle : {β : Type} → Op β → m β)
    (p : Program Op α) (f : α → Program Op β) :
    (p >>= f).run handle = p.run handle >>= fun a => (f a).run handle := by
  induction p with
  | done a => simp [bind, andThen, run]
  | ask op next ih =>
    change (handle op >>= fun b => ((next b).andThen f).run handle) = _
    simp only [run, bind_assoc]
    exact congrArg _ (funext fun b => ih b)

end Program

end SessionGate
