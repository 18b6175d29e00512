import Mathlib.Data.List.Infix
import SessionGate.Host.System
import SessionGate.Proofs.Host.Files

/-!
Paths from the root. A path that lists names, each behind a slash, leads to the place of these names as
soon as all the directories on the way are there. Main statement: `Files.resolve_names`.
-/

namespace SessionGate.Host

/-- What a directory can have as the name of an entry. -/
structure IsName (name : String) : Prop where
  ne_empty : name ≠ ""
  ne_dot : name ≠ "."
  ne_dots : name ≠ ".."
  noSlash : '/' ∉ name.toList
  noNul : '\x00' ∉ name.toList

instance (name : String) : Decidable (IsName name) :=
  decidable_of_iff (name ≠ "" ∧ name ≠ "." ∧ name ≠ ".." ∧ '/' ∉ name.toList ∧ '\x00' ∉ name.toList)
    ⟨fun ⟨hempty, hdot, hdots, hslash, hnul⟩ => ⟨hempty, hdot, hdots, hslash, hnul⟩,
      fun h => ⟨h.ne_empty, h.ne_dot, h.ne_dots, h.noSlash, h.noNul⟩⟩

/-- The working directory is there, under names that a directory can have. -/
structure System.WellPlaced (s : System) : Prop where
  names : ∀ name ∈ s.here, IsName name
  directories : ∀ place, place <+: s.here → s.files.node? place = some .directory

/-- The characters of the path that lists names from the root down. -/
def slashed (names : List String) : List Char :=
  names.flatMap fun name => '/' :: name.toList

theorem pieces_slashed {names : List String} (hnames : ∀ name ∈ names, IsName name)
    {chars : List Char} (hchars : '/' ∉ chars) :
    Text.pieces '/' (chars ++ slashed names) = chars :: names.map String.toList := by
  induction names generalizing chars with
  | nil =>
    rw [slashed, List.flatMap_nil, List.append_nil]
    exact Text.pieces_of_not_mem hchars
  | cons name names ih =>
    obtain ⟨hname, hnames⟩ := List.forall_mem_cons.mp hnames
    rw [slashed, List.flatMap_cons, List.cons_append, Text.pieces_append hchars]
    exact congrArg (List.cons chars) (ih hnames hname.noSlash)

namespace Files

variable {f : Files} {here : Place} {path : String} {names : List String}

theorem namesOf_slashed (hpath : path.toList = slashed names) (hnames : ∀ name ∈ names, IsName name) :
    namesOf path = "" :: names := by
  have hpieces : Text.pieces '/' path.toList = [] :: names.map String.toList := by
    rw [hpath]
    exact pieces_slashed hnames (List.not_mem_nil)
  rw [namesOf, hpieces, List.map_cons, List.map_map]
  simp [Function.comp_def]

/-- Every directory above a place, from another one down, is there. -/
def Reachable (f : Files) (place : Place) (names : List String) : Prop :=
  ∀ front, front <+: names → front ≠ names → f.node? (place ++ front) = some .directory

theorem follow_names {place : Place} (hnames : ∀ name ∈ names, IsName name)
    (hway : f.Reachable place names) : f.follow place names = .ok (place ++ names) := by
  induction names generalizing place with
  | nil => rw [follow, List.append_nil]
  | cons name names ih =>
    obtain ⟨hname, hnames⟩ := List.forall_mem_cons.mp hnames
    have hplace : f.node? place = some .directory := by
      simpa using hway [] List.nil_prefix (by simp)
    have hrest : f.Reachable (place ++ [name]) names := by
      intro front hfront hne
      rw [List.append_assoc]
      exact hway (name :: front) (List.cons_prefix_cons.mpr ⟨rfl, hfront⟩) (by simpa using hne)
    refine follow_cons_eq_ok_iff.mpr ⟨enter_eq_ok_iff.mpr hplace, ?_⟩
    rw [onward_down (not_or.mpr ⟨hname.ne_empty, hname.ne_dot⟩) hname.ne_dots, ih hnames hrest,
      List.append_assoc, List.singleton_append]

theorem resolve_names (hpath : path.toList = slashed names) (hnames : ∀ name ∈ names, IsName name)
    (hne : names ≠ []) (hway : f.Reachable [] names) : f.resolve here path = .ok names := by
  have hfirst : path.toList.head? = some '/' := by
    obtain ⟨name, more, rfl⟩ := List.exists_cons_of_ne_nil hne
    rw [hpath]
    rfl
  have hempty : path ≠ "" := by
    rintro rfl
    cases hfirst
  have hnul : ¬ path.toList.any (·.toNat == 0) = true := by
    rw [List.any_eq_true, hpath]
    rintro ⟨c, hc, hzero⟩
    obtain ⟨name, hname, hc⟩ := List.mem_flatMap.mp hc
    rcases List.mem_cons.mp hc with rfl | hc
    · exact absurd hzero (by decide)
    · have hnul : c = '\x00' := Char.toNat_inj.mp (eq_of_beq hzero)
      exact (hnames name hname).noNul (hnul ▸ hc)
  rw [resolve, if_neg hempty, if_neg hnul, startOf, if_pos hfirst, namesOf_slashed hpath hnames, follow]
  exact follow_names hnames hway

end Files

end SessionGate.Host
