import SessionGate.Host.Files
import SessionGate.Proofs.Except
import SessionGate.Proofs.Text.Utf8

/-!
A text that was written to a file reads back from it. No directory on the way to the file changes, so
that the same path still leads to it. Main statement: `Files.read_of_write`.
-/

namespace SessionGate.Host.Files

variable {f f' f'' : Files} {here place : Place} {path text : String}

theorem lookup_replace {nodes : List (Place × Node)} (n : Node) (q : Place) :
    (nodes.map fun e => if e.1 = place then (e.1, n) else e).lookup q =
      if q = place then (nodes.lookup q).map fun _ => n else nodes.lookup q := by
  induction nodes with
  | nil => exact (ite_self none).symm
  | cons e nodes ih =>
    rw [List.map_cons, List.lookup_cons]
    by_cases hq : q = e.1
    · subst hq
      rw [List.lookup_cons_self (k := e.1) (b := e.2)]
      by_cases hp : e.1 = place <;> simp [hp]
    · have hkey : (if e.1 = place then (e.1, n) else e).1 = e.1 := by split <;> rfl
      rw [List.lookup_cons, hkey, beq_false_of_ne hq]
      exact ih

theorem node?_put (hplace : place ≠ []) (n : Node) (q : Place) :
    (f.put place n).node? q = if q = place then some n else f.node? q := by
  by_cases hq : q = []
  · subst hq
    rw [node?, node?, if_pos rfl, if_pos rfl, if_neg hplace.symm]
  rw [node?, node?, if_neg hq, if_neg hq, put]
  split
  · next hany =>
    obtain ⟨e, he, heq⟩ := List.any_eq_true.mp hany
    have hsome : ∃ m, f.nodes.lookup place = some m := by
      cases hlookup : f.nodes.lookup place with
      | some m => exact ⟨m, rfl⟩
      | none =>
        have hne := List.lookup_eq_none_iff.mp hlookup e he
        simp [eq_of_beq heq] at hne
    obtain ⟨m, hm⟩ := hsome
    refine (lookup_replace n q).trans ?_
    split
    · next hq =>
      rw [hq, hm]
      rfl
    · rfl
  · next hany =>
    rw [List.lookup_append]
    by_cases hq' : q = place
    · subst hq'
      have hnone : f.nodes.lookup q = none := by
        rw [List.lookup_eq_none_iff]
        intro e he
        simpa using fun heq : q = e.1 => hany (List.any_eq_true.mpr ⟨e, he, by simp [heq]⟩)
      rw [hnone, if_pos rfl]
      exact List.lookup_cons_self
    · rw [if_neg hq', List.lookup_cons, beq_false_of_ne hq']
      exact Option.or_none

theorem enter_eq_ok_iff {q : Place} : f.enter q = .ok () ↔ f.node? q = some .directory := by
  refine ⟨fun h => ?_, fun h => by rw [enter, h]⟩
  unfold enter at h
  split at h
  · next hnode => exact hnode
  · cases h
  · cases h

/-- Where one name leads from a directory. -/
def onward (here : Place) (name : String) : Place :=
  if name = "" ∨ name = "." then here
  else if name = ".." then here.dropLast
  else here ++ [name]

section

variable {name : String} {names : List String} {q : Place}

theorem onward_stay (h : name = "" ∨ name = ".") : onward here name = here := if_pos h

theorem onward_up : onward here ".." = here.dropLast := rfl

theorem onward_down (hstay : ¬ (name = "" ∨ name = ".")) (hup : name ≠ "..") :
    onward here name = here ++ [name] := by
  rw [onward, if_neg hstay, if_neg hup]

theorem follow_cons (f : Files) (here : Place) (name : String) (names : List String) :
    f.follow here (name :: names) = f.enter here >>= fun _ => f.follow (onward here name) names := by
  rw [follow, onward]
  refine congrArg (f.enter here >>= ·) (funext fun _ => ?_)
  split
  · rfl
  · split <;> rfl

theorem follow_cons_eq_ok_iff : f.follow here (name :: names) = .ok q ↔
    f.enter here = .ok () ∧ f.follow (onward here name) names = .ok q := by
  rw [follow_cons, Except.bind_eq_ok_iff]
  exact ⟨fun ⟨_, h⟩ => h, fun h => ⟨(), h⟩⟩

/-- What can be entered can be followed: a tree in which no directory is lost has all the ways of another. -/
theorem follow_mono (henter : ∀ q, f.enter q = .ok () → f'.enter q = .ok ())
    (h : f.follow here names = .ok q) : f'.follow here names = .ok q := by
  induction names generalizing here with
  | nil => exact h
  | cons name names ih =>
    obtain ⟨hhere, hrest⟩ := follow_cons_eq_ok_iff.mp h
    exact follow_cons_eq_ok_iff.mpr ⟨henter here hhere, ih hrest⟩

end

section

variable {n : Node} {q : Place} (hplace : f.node? place ≠ some .directory)

include hplace

theorem place_ne_nil : place ≠ [] := by
  rintro rfl
  exact hplace rfl

theorem enter_put (h : f.enter q = .ok ()) : (f.put place n).enter q = .ok () := by
  have hdirectory := enter_eq_ok_iff.mp h
  have hq : q ≠ place := fun hq => hplace (hq ▸ hdirectory)
  rw [enter, node?_put (place_ne_nil hplace), if_neg hq, hdirectory]

theorem follow_put {names : List String} (h : f.follow here names = .ok q) :
    (f.put place n).follow here names = .ok q :=
  follow_mono (fun _ => enter_put hplace) h

theorem resolve_put (h : f.resolve here path = .ok q) :
    (f.put place n).resolve here path = .ok q := by
  unfold resolve at h ⊢
  split at h
  · cases h
  · split at h
    · cases h
    · next hpath hnul => rw [if_neg hpath, if_neg hnul, follow_put hplace h]

end

theorem textOf_toUTF8 (text : String) : textOf text.toUTF8.toList = .ok text := by
  have hread := Json.textOfBytes?_toList text
  rw [Json.textOfBytes?] at hread
  rw [textOf, hread]

/-- No other bytes are read as a text than its own. -/
theorem textOf_eq_ok_iff {bytes : List UInt8} {text : String} :
    textOf bytes = .ok text ↔ bytes = text.toUTF8.toList := by
  refine ⟨fun h => ?_, fun h => h ▸ textOf_toUTF8 text⟩
  rw [textOf, String.fromUTF8?] at h
  split at h
  · next text' htext =>
    split at htext
    · next hvalid =>
      obtain rfl := Except.ok.inj h
      obtain rfl := Option.some.inj htext
      rw [byteArray_toList_eq]
      rfl
    · cases htext
  · cases h

theorem read_put {bytes : List UInt8} {ownerOnly : Bool} (hresolve : f.resolve here path = .ok place)
    (hplace : f.node? place ≠ some .directory) :
    (f.put place (.file bytes ownerOnly)).read here path = textOf bytes := by
  have hnode : (f.put place (.file bytes ownerOnly)).node? place = some (.file bytes ownerOnly) := by
    rw [node?_put (place_ne_nil hplace), if_pos rfl]
  rw [read, resolve_put hplace hresolve]
  dsimp only [bind, Except.bind]
  rw [hnode]

/-- A tree is another one with these bytes in the file at a place. -/
structure Stores (f f' : Files) (place : Place) (bytes : List UInt8) : Prop where
  there : ∃ ownerOnly, f'.node? place = some (.file bytes ownerOnly)
  others : ∀ q, q ≠ place → f'.node? q = f.node? q

theorem stores_put (hplace : f.node? place ≠ some .directory) (bytes : List UInt8) (ownerOnly : Bool) :
    f.Stores (f.put place (.file bytes ownerOnly)) place bytes where
  there := ⟨ownerOnly, by rw [node?_put (place_ne_nil hplace), if_pos rfl]⟩
  others q hq := by rw [node?_put (place_ne_nil hplace), if_neg hq]

theorem write_of_directory (hresolve : f.resolve here path = .ok place)
    (hplace : f.node? place = some .directory) (text : String) :
    f.write here path text = .error .isDirectory := by
  rw [write, hresolve]
  dsimp only [bind, Except.bind]
  rw [hplace]
  rfl

theorem exists_write (hresolve : f.resolve here path = .ok place)
    (hplace : f.node? place ≠ some .directory) (text : String) :
    ∃ f', f.write here path text = .ok f' ∧ f.Stores f' place text.toUTF8.toList := by
  rw [write, hresolve]
  dsimp only [bind, Except.bind]
  split
  · next hnode => exact absurd hnode hplace
  · exact ⟨_, rfl, stores_put hplace _ _⟩
  · exact ⟨_, rfl, stores_put hplace _ _⟩

theorem exists_restrict {bytes : List UInt8} {ownerOnly : Bool} (hresolve : f.resolve here path = .ok place)
    (hnode : f.node? place = some (.file bytes ownerOnly)) :
    ∃ f', f.restrict here path = .ok f' ∧ f.Stores f' place bytes := by
  rw [restrict, hresolve]
  dsimp only [bind, Except.bind]
  rw [hnode]
  exact ⟨_, rfl, stores_put (by rw [hnode]; exact nofun) _ _⟩

theorem read_of_write (h : f.write here path text = .ok f') : f'.read here path = .ok text := by
  rw [write] at h
  cases hresolve : f.resolve here path with
  | error fault =>
    rw [hresolve] at h
    cases h
  | ok place =>
    rw [hresolve] at h
    have hread : ∀ ownerOnly, f.node? place ≠ some .directory →
        (f.put place (.file text.toUTF8.toList ownerOnly)).read here path = .ok text :=
      fun ownerOnly hplace => (read_put hresolve hplace).trans (textOf_toUTF8 text)
    dsimp only [bind, Except.bind] at h
    split at h
    · cases h
    · next hnode =>
      obtain rfl := Except.ok.inj h
      exact hread _ (by simp [hnode])
    · next hnode =>
      obtain rfl := Except.ok.inj h
      exact hread _ (by simp [hnode])

end SessionGate.Host.Files
