import Mathlib.Data.List.TakeWhile
import SessionGate.Config.Interpolation

/-!
Which texts no environment changes: those that no placeholder stands in. Any other text takes what an
environment has for the first of its placeholders.
-/

namespace SessionGate.Config

namespace Placeholder

theorem wellFormed_of_read? {text rest : List Char} {p : Placeholder}
    (h : read? text = some (p, rest)) : p.WellFormed := by
  unfold read? at h
  split at h
  · next chars =>
    dsimp only at h
    split at h
    · next hstart =>
      have hname : ∀ c ∈ chars.takeWhile isNameChar, isNameChar c := fun c => List.mem_takeWhile_imp
      have hhead : ∃ c ∈ (chars.takeWhile isNameChar).head?, isNameStart c :=
        (Option.any_eq_true _ _).mp hstart
      split at h
      · obtain ⟨rfl, -⟩ := Prod.mk.inj (Option.some.inj h)
        exact ⟨hhead, hname, fun _ ht => absurd ht (by rintro ⟨⟩)⟩
      · split at h
        · obtain ⟨rfl, -⟩ := Prod.mk.inj (Option.some.inj h)
          refine ⟨hhead, hname, ?_⟩
          rintro _ ⟨⟩ hmem
          exact absurd (List.mem_takeWhile_imp hmem) (by decide)
        · cases h
      · cases h
    · cases h
  · cases h

theorem wellFormed_of {p : Placeholder} (hstart : p.name.head?.any isNameStart)
    (hname : p.name.all isNameChar) (hfallback : '\x7d' ∉ p.fallback.getD []) : p.WellFormed := by
  refine ⟨(Option.any_eq_true _ _).mp hstart, List.all_eq_true.mp hname, fun text htext => ?_⟩
  rwa [Option.mem_def.mp htext] at hfallback

theorem ofList_value (environment : String → Option String) (p : Placeholder) :
    String.ofList (p.value environment) =
      (environment (String.ofList p.name)).getD (String.ofList (p.fallback.getD [])) := by
  rw [value]
  split <;> simp_all

theorem forall_mem_value {environment : String → Option String} {p : Placeholder} {P : Char → Prop}
    (hfallback : ∀ c ∈ p.fallback.getD [], P c)
    (h : ∀ text, environment (String.ofList p.name) = some text → ∀ c ∈ text.toList, P c) :
    ∀ c ∈ p.value environment, P c := by
  rw [value]
  split
  · next text htext => exact h text htext
  · exact hfallback

theorem read?_chars {p : Placeholder} (h : p.WellFormed) (rest : List Char) :
    read? (p.chars ++ rest) = some (p, rest) := by
  obtain ⟨name, fallback⟩ := p
  obtain ⟨hstart, hname, hfallback⟩ := h
  have htake : ∀ {c : Char} {more : List Char}, isNameChar c = false →
      (name ++ c :: more).takeWhile isNameChar = name := by
    intro c more hc
    rw [List.takeWhile_append_of_pos hname, List.takeWhile_cons_of_neg (by simp [hc]), List.append_nil]
  have hany : (name.head?.any isNameStart) = true := (Option.any_eq_true _ _).mpr hstart
  cases fallback with
  | none =>
    have hchars : chars ⟨name, none⟩ ++ rest = '$' :: '\x7b' :: (name ++ '\x7d' :: rest) := by
      simp [chars]
    rw [hchars]
    simp only [read?]
    rw [htake (by decide), if_pos hany, List.drop_left]
    rfl
  | some text =>
    have hchars : chars ⟨name, some text⟩ ++ rest =
        '$' :: '\x7b' :: (name ++ ':' :: '-' :: (text ++ '\x7d' :: rest)) := by
      simp [chars]
    have htext : (text ++ '\x7d' :: rest).takeWhile (· != '\x7d') = text := by
      rw [List.takeWhile_append_of_pos, List.takeWhile_cons_of_neg (by decide), List.append_nil]
      intro c hc
      simpa using fun heq : c = '\x7d' => hfallback text rfl (heq ▸ hc)
    rw [hchars]
    simp only [read?]
    rw [htake (by decide), if_pos hany, List.drop_left]
    simp only [htext, List.drop_left]

end Placeholder

/-- Some placeholder stands in a text. -/
def HoldsPlaceholder (text : String) : Prop :=
  ∃ p : Placeholder, p.WellFormed ∧ p.chars <:+: text.toList

section

variable {environment : String → Option String}

theorem expand_of_read? {chars rest : List Char} {p : Placeholder}
    (h : Placeholder.read? chars = some (p, rest)) :
    expand environment chars = p.value environment ++ expand environment rest := by
  cases chars with
  | nil => cases h
  | cons c more =>
    rw [expand]
    split
    · next heq =>
      obtain ⟨rfl, rfl⟩ := Prod.mk.inj (Option.some.inj (heq.symm.trans h))
      rfl
    · next heq => cases h.symm.trans heq

theorem expand_cons {c : Char} {rest : List Char} (h : Placeholder.read? (c :: rest) = none) :
    expand environment (c :: rest) = c :: expand environment rest := by
  rw [expand]
  split
  · next heq => cases h.symm.trans heq
  · rfl

theorem expand_eq_self {chars : List Char}
    (h : ∀ p : Placeholder, p.WellFormed → ¬ p.chars <:+: chars) :
    expand environment chars = chars := by
  induction chars with
  | nil => rw [expand]
  | cons c rest ih =>
    have hread : Placeholder.read? (c :: rest) = none := by
      rw [Option.eq_none_iff_forall_ne_some]
      rintro ⟨p, after⟩ hread
      rw [Placeholder.eq_append_of_read? hread] at h
      exact h p (Placeholder.wellFormed_of_read? hread) (List.prefix_append _ _).isInfix
    rw [expand_cons hread, ih fun p hp hrest => h p hp (hrest.trans (List.suffix_cons c rest).isInfix)]

theorem interpolate_eq_self {text : String} (h : ¬ HoldsPlaceholder text) :
    interpolate environment text = text := by
  rw [interpolate, expand_eq_self fun p hp hwithin => h ⟨p, hp, hwithin⟩, String.ofList_toList]

end

theorem exists_mem_expand {chars : List Char} {p : Placeholder} (hp : p.WellFormed)
    (h : p.chars <:+: chars) (mark : Char) :
    ∃ name, mark ∈ expand (fun n => [(name, String.singleton mark)].lookup n) chars := by
  induction chars with
  | nil => cases List.infix_nil.mp h
  | cons c rest ih =>
    cases hread : Placeholder.read? (c :: rest) with
    | some result =>
      obtain ⟨q, after⟩ := result
      refine ⟨String.ofList q.name, ?_⟩
      rw [expand_of_read? hread]
      refine List.mem_append_left _ ?_
      simp [Placeholder.value]
    | none =>
      -- Nothing is replaced here, so that the placeholder stands further on.
      have hrest : p.chars <:+: rest := by
        rcases List.infix_cons_iff.mp h with hfront | hrest
        · obtain ⟨more, hmore⟩ := hfront
          rw [← hmore, Placeholder.read?_chars hp] at hread
          cases hread
        · exact hrest
      obtain ⟨name, hmem⟩ := ih hrest
      exact ⟨name, by rw [expand_cons hread]; exact List.mem_cons_of_mem _ hmem⟩

end SessionGate.Config
