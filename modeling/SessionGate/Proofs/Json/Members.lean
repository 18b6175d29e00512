import Mathlib.Data.List.Forall2
import SessionGate.Json.Fields

/-!
What a record is read from are the members of its own names: neither their order nor any member of
another name makes a difference. Main statement: `Reordered.fields?_eq`.
-/

namespace SessionGate.Json

variable {members members' : List (Option String × Json)}

/-- The same members in any order, among others of names that are not known. -/
def Reordered (known : List String) (members members' : List (Option String × Json)) : Prop :=
  ∃ others, members'.Perm (members ++ others) ∧ ∀ m ∈ others, ∃ name ∉ known, m.1 = some name

/-- The same value, or objects with the same members of known names. -/
def Alike (fields : List (List String)) (v v' : Json) : Prop :=
  v = v' ∨ ∃ members members', v = .object members ∧ v' = .object members' ∧
    Reordered fields.flatten members members'

/-- The members of some names. -/
def namedIn (names : List String) (members : List (Option String × Json)) :
    List (Option String × Json) :=
  members.filter fun m => names.any (some · == m.1)

/-- The value of the one member that is found. -/
def sole? : List (Option String × Json) → Option (Option Json)
  | [] => some none
  | [(_, v)] => some (some v)
  | _ => none

theorem only?_eq (names : List String) (members : List (Option String × Json)) :
    only? names members = sole? (namedIn names members) := rfl

theorem sole?_perm {found found' : List (Option String × Json)} (h : found.Perm found') :
    sole? found = sole? found' := by
  rcases found with _ | ⟨m, _ | ⟨n, more⟩⟩
  · rw [List.nil_perm.mp h]
  · rw [List.singleton_perm.mp h]
  · rcases found' with _ | ⟨m', _ | ⟨n', more'⟩⟩
    · cases h.length_eq
    · cases h.length_eq
    · rfl

theorem only?_perm (h : members.Perm members') (names : List String) :
    only? names members = only? names members' := by
  rw [only?_eq, only?_eq]
  exact sole?_perm (h.filter _)

theorem only?_append {names : List String} {others : List (Option String × Json)}
    (h : ∀ m ∈ others, ∀ name ∈ names, m.1 ≠ some name) :
    only? names (members ++ others) = only? names members := by
  have hnone : namedIn names others = [] := by
    rw [namedIn, List.filter_eq_nil_iff]
    intro m hm hany
    obtain ⟨known, hknown, heq⟩ := List.any_eq_true.mp hany
    exact h m hm known hknown (eq_of_beq heq).symm
  rw [only?_eq, only?_eq, namedIn, List.filter_append, ← namedIn, ← namedIn, hnone, List.append_nil]

theorem Reordered.only?_eq {known names : List String} (h : Reordered known members members')
    (hnames : ∀ name ∈ names, name ∈ known) : only? names members' = only? names members := by
  obtain ⟨others, hperm, hothers⟩ := h
  rw [only?_perm hperm, only?_append]
  rintro m hm name hname heq
  obtain ⟨other, hother, hm⟩ := hothers m hm
  exact hother (Option.some.inj (hm.symm.trans heq) ▸ hnames name hname)

theorem Reordered.all_isSome_eq {known : List String} (h : Reordered known members members') :
    (members'.all fun (name, _) => name.isSome) = members.all fun (name, _) => name.isSome := by
  obtain ⟨others, hperm, hothers⟩ := h
  have hnamed : (others.all fun (name, _) => name.isSome) = true := by
    rw [List.all_eq_true]
    intro m hm
    obtain ⟨name, -, hname⟩ := hothers m hm
    exact congrArg Option.isSome hname
  rw [hperm.all_eq, List.all_append, hnamed, Bool.and_true]

theorem mapM_congr {α β : Type} {f g : α → Option β} {as : List α} (h : ∀ a ∈ as, f a = g a) :
    as.mapM f = as.mapM g := by
  induction as with
  | nil => rfl
  | cons a as ih =>
    obtain ⟨ha, has⟩ := List.forall_mem_cons.mp h
    rw [List.mapM_cons, List.mapM_cons, ha, ih has]

theorem Reordered.fields?_eq {fields : List (List String)}
    (h : Reordered fields.flatten members members') :
    (object members').fields? fields = (object members).fields? fields := by
  have hmap : fields.mapM (only? · members') = fields.mapM (only? · members) :=
    mapM_congr fun names hnames =>
      h.only?_eq fun name hname => List.mem_flatten_of_mem hnames hname
  change members? fields members' = members? fields members
  rw [members?, members?, h.all_isSome_eq, hmap]

theorem Alike.fields?_eq {fields : List (List String)} {v v' : Json} (h : Alike fields v v') :
    v'.fields? fields = v.fields? fields := by
  obtain rfl | ⟨members, members', rfl, rfl, h⟩ := h
  · rfl
  · exact h.fields?_eq

theorem all_isSome_of_forall₂ {r : Json → Json → Prop}
    (h : List.Forall₂ (fun m m' => m'.1 = m.1 ∧ r m.2 m'.2) members members') :
    (members'.all fun (name, _) => name.isSome) = members.all fun (name, _) => name.isSome := by
  induction h with
  | nil => rfl
  | cons hm _ ih => exact congrArg₂ (· && ·) (congrArg Option.isSome hm.1) ih

/-- Of a value under a name only what it is read as makes a difference. -/
theorem map_only?_of_forall₂ {f : Json → β}
    (h : List.Forall₂ (fun m m' => m'.1 = m.1 ∧ f m'.2 = f m.2) members members')
    (names : List String) :
    (only? names members').map (Option.map f) = (only? names members).map (Option.map f) := by
  have hnamed : List.Forall₂ (fun m m' => m'.1 = m.1 ∧ f m'.2 = f m.2) (namedIn names members)
      (namedIn names members') := List.rel_filter (fun m m' hm => by simp only [hm.1]) h
  rw [only?_eq, only?_eq]
  generalize namedIn names members = found at hnamed
  generalize namedIn names members' = found' at hnamed
  cases hnamed with
  | nil => rfl
  | cons hm hothers =>
    cases hothers with
    | nil => exact congrArg (some ∘ some) hm.2
    | cons _ _ => rfl

end SessionGate.Json
