/-!
Results that may be faults. What came out well tells how each of its parts came out.
-/

namespace Except

variable {ε ε' α β : Type}

theorem bind_eq_ok_iff {e : Except ε α} {f : α → Except ε β} {b : β} :
    e >>= f = .ok b ↔ ∃ a, e = .ok a ∧ f a = .ok b := by
  cases e with
  | error fault => exact iff_of_false nofun nofun
  | ok a =>
    constructor
    · intro h
      exact ⟨a, rfl, h⟩
    · rintro ⟨a', ha, h⟩
      obtain rfl := ok.inj ha
      exact h

theorem map_eq_ok_iff {e : Except ε α} {f : α → β} {b : β} : e.map f = .ok b ↔ ∃ a, e = .ok a ∧ f a = b := by
  cases e with
  | error fault => exact iff_of_false nofun nofun
  | ok a =>
    constructor
    · intro h
      exact ⟨a, rfl, ok.inj h⟩
    · rintro ⟨a', ha, h⟩
      obtain rfl := ok.inj ha
      exact congrArg ok h

theorem map_eq_error_iff {e : Except ε α} {f : α → β} {fault : ε} :
    e.map f = .error fault ↔ e = .error fault := by
  cases e with
  | error fault' =>
    constructor
    · intro h
      exact congrArg error (error.inj h)
    · intro h
      exact congrArg error (error.inj h)
  | ok a => exact iff_of_false nofun nofun

theorem mapError_eq_ok_iff {e : Except ε α} {f : ε → ε'} {a : α} : e.mapError f = .ok a ↔ e = .ok a := by
  cases e with
  | error fault => exact iff_of_false nofun nofun
  | ok b =>
    constructor
    · intro h
      exact congrArg ok (ok.inj h)
    · intro h
      exact congrArg ok (ok.inj h)

theorem mapError_id (e : Except ε α) : e.mapError id = e := by
  cases e <;> rfl

theorem toOption_eq_some_iff {e : Except ε α} {a : α} : e.toOption = some a ↔ e = .ok a := by
  cases e <;> simp [Except.toOption]

end Except
