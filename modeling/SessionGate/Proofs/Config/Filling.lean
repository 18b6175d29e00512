import SessionGate.Proofs.Config.Interpolation
import SessionGate.Proofs.Toml.Opening

/-!
What a text with placeholders becomes, part by part. Main statement: `Fills.expand_eq`.
-/

namespace SessionGate.Config

/-- Whatever comes after a text, it becomes another one when its placeholders are replaced. -/
def Fills (environment : String → Option String) (text filled : List Char) : Prop :=
  ∀ rest, expand environment (text ++ rest) = filled ++ expand environment rest

namespace Fills

variable {environment : String → Option String} {text filled more filled' : List Char}

theorem nil : Fills environment [] [] := fun _ => rfl

theorem append (h : Fills environment text filled) (h' : Fills environment more filled') :
    Fills environment (text ++ more) (filled ++ filled') := by
  intro rest
  rw [List.append_assoc, h, h', List.append_assoc]

theorem placeholder {p : Placeholder} (h : p.WellFormed) :
    Fills environment p.chars (p.value environment) :=
  fun rest => expand_of_read? (Placeholder.read?_chars h rest)

theorem read?_eq_none {c : Char} {chars : List Char}
    (h : ∀ d ∈ chars.head?, Toml.Apart c d) : Placeholder.read? (c :: chars) = none := by
  unfold Placeholder.read?
  split
  · next heq =>
    obtain ⟨rfl, rfl⟩ := List.cons.inj heq
    exact absurd rfl (h _ rfl rfl)
  · rfl

/-- A text in which no placeholder is opened stays as it is, even if a brace comes after it. -/
theorem plain (h : Toml.NoOpening (text ++ ['\x7b'])) : Fills environment text text := by
  induction text with
  | nil => exact nil
  | cons c text ih =>
    intro rest
    obtain ⟨hhead, htail⟩ := List.isChain_cons.mp h
    have hread : Placeholder.read? (c :: (text ++ rest)) = none := by
      refine read?_eq_none fun d hd => ?_
      cases text with
      | nil => exact fun hc => absurd rfl (hhead _ rfl hc)
      | cons e text => exact hhead d hd
    rw [List.cons_append, expand_cons hread, ih htail]
    rfl

theorem of_plain (h : text.all Toml.isPlain) : Fills environment text text :=
  .plain (Toml.noOpening_plain h (List.isChain_singleton _))

theorem flatMap {α : Type} {xs : List α} {f g : α → List Char}
    (h : ∀ x ∈ xs, Fills environment (f x) (g x)) : Fills environment (xs.flatMap f) (xs.flatMap g) := by
  induction xs with
  | nil => exact nil
  | cons x xs ih =>
    rw [List.forall_mem_cons] at h
    exact h.1.append (ih h.2)

theorem expand_eq (h : Fills environment text filled) : expand environment text = filled := by
  have hall := h []
  rwa [List.append_nil, expand, List.append_nil] at hall

end Fills

end SessionGate.Config
