import SessionGate.Proofs.Host.Paths

/-!
Making the directories of a path. It leaves every file as it is, however it ends. Unless there is a fault
the path leads to a directory afterwards, and where it led to one before nothing is made. Main statements:
`gains_makeDirectories`, `makeDirectories_ok`, `makeDirectories_of_directoryAt`.
-/

namespace SessionGate.Host.Files

variable {f f' f'' : Files} {here place q : Place} {names : List String} {path name : String}

/-- What is in a file, and whether it is for its owner alone. -/
def file? (f : Files) (place : Place) : Option (List UInt8 × Bool) :=
  match f.node? place with
  | some (.file bytes ownerOnly) => some (bytes, ownerOnly)
  | _ => none

theorem node?_of_file? {bytes : List UInt8} {ownerOnly : Bool}
    (h : f.file? place = some (bytes, ownerOnly)) : f.node? place = some (.file bytes ownerOnly) := by
  rw [file?] at h
  split at h
  · next hnode =>
    obtain ⟨rfl, rfl⟩ := Prod.mk.inj (Option.some.inj h)
    exact hnode
  · cases h

/-- Nothing happens to a tree but that directories are made at places where nothing was. -/
def Gains (f f' : Files) : Prop := ∀ place, f'.node? place = f.node? place ∨
  f.node? place = none ∧ f'.node? place = some .directory

namespace Gains

theorem refl (f : Files) : f.Gains f := fun _ => .inl rfl

theorem trans (h : f.Gains f') (h' : f'.Gains f'') : f.Gains f'' := by
  intro place
  rcases h' place with hsame | ⟨hnone, hmade⟩
  · rw [hsame]
    exact h place
  · rcases h place with hfirst | ⟨-, hdirectory⟩
    · exact .inr ⟨hfirst ▸ hnone, hmade⟩
    · cases hnone.symm.trans hdirectory

theorem put (hplace : f.node? place = none) : f.Gains (f.put place .directory) := by
  intro q
  have hne : place ≠ [] := by
    rintro rfl
    cases hplace
  rw [node?_put hne]
  split
  · next hq => exact .inr ⟨hq ▸ hplace, rfl⟩
  · exact .inl rfl

theorem directory (h : f.Gains f') (hplace : f.node? place = some .directory) :
    f'.node? place = some .directory := by
  rcases h place with hsame | ⟨-, hmade⟩
  · rw [hsame, hplace]
  · exact hmade

theorem file?_eq (h : f.Gains f') (place : Place) : f'.file? place = f.file? place := by
  rw [file?, file?]
  rcases h place with hsame | ⟨hnone, hmade⟩
  · rw [hsame]
  · rw [hnone, hmade]

end Gains

theorem follow_append (f : Files) (here : Place) (names more : List String) :
    f.follow here (names ++ more) = (f.follow here names).bind fun q => f.follow q more := by
  induction names generalizing here with
  | nil => rfl
  | cons name names ih =>
    rw [List.cons_append, follow_cons, follow_cons]
    cases f.enter here with
    | error fault => rfl
    | ok u => exact ih (onward here name)

/-- The directory that a path leads to. -/
def directoryAt (f : Files) (here : Place) (path : String) : Except FileFault Place := do
  let place ← f.follow (startOf here path) (namesOf path)
  f.enter place
  return place

theorem directoryAt_eq_ok_iff : f.directoryAt here path = .ok place ↔
    f.follow (startOf here path) (namesOf path) = .ok place ∧ f.node? place = some .directory := by
  constructor
  · intro h
    obtain ⟨q, hq, hentered⟩ := Except.bind_eq_ok_iff.mp h
    obtain ⟨_, henter, hplace⟩ := Except.bind_eq_ok_iff.mp hentered
    obtain rfl := Except.ok.inj hplace
    exact ⟨hq, enter_eq_ok_iff.mp henter⟩
  · rintro ⟨hq, hdirectory⟩
    refine Except.bind_eq_ok_iff.mpr ⟨place, hq, ?_⟩
    exact Except.bind_eq_ok_iff.mpr ⟨(), enter_eq_ok_iff.mpr hdirectory, rfl⟩

/-- Whether there is a fault or not. -/
theorem gains_makeAlong (f : Files) (made : Bool) (here : Place) (names : List String) :
    f.Gains (f.makeAlong made here names).2 := by
  fun_induction makeAlong f made here names with
  | case1 | case2 | case6 | case7 => exact .refl _
  | case3 _ _ _ _ _ _ _ ih | case4 _ _ _ _ _ _ ih | case5 _ _ _ _ _ _ _ _ _ _ ih => exact ih
  | case8 _ _ _ _ _ _ _ _ _ hnone _ ih => exact (Gains.put hnone).trans ih

/-- Names lead from a place to a directory. -/
def Leads (f : Files) (here : Place) (names : List String) : Prop :=
  ∃ place, f.follow here names = .ok place ∧ f.node? place = some .directory

/-- A step in a tree that gains directories: the way through a directory goes on as it did. -/
theorem Leads.cons (henter : f.enter here = .ok ()) (hgains : f.Gains f')
    (h : f'.Leads (onward here name) names) : f'.Leads here (name :: names) := by
  obtain ⟨place, hfollow, hdirectory⟩ := h
  have hhere : f'.enter here = .ok () := enter_eq_ok_iff.mpr (hgains.directory (enter_eq_ok_iff.mp henter))
  exact ⟨place, follow_cons_eq_ok_iff.mpr ⟨hhere, hfollow⟩, hdirectory⟩

theorem leads_makeAlong {made : Bool} (h : (f.makeAlong made here names).1 = .ok ()) :
    (f.makeAlong made here names).2.Leads here names := by
  fun_induction makeAlong f made here names with
  | case1 f made here => exact ⟨here, rfl, enter_eq_ok_iff.mp h⟩
  | case2 | case6 | case7 => cases h
  | case3 f made here name names henter hstay ih =>
    refine .cons henter (gains_makeAlong _ _ _ _) ?_
    rw [onward_stay hstay]
    exact ih h
  | case4 f made here names henter hstay ih => exact .cons henter (gains_makeAlong _ _ _ _) (ih h)
  | case5 f made here name names henter hstay hup next hnext ih =>
    refine .cons henter (gains_makeAlong _ _ _ _) ?_
    rw [onward_down hstay hup]
    exact ih h
  | case8 f made here name names henter hstay hup next hnone hdots ih =>
    refine .cons henter ((Gains.put hnone).trans (gains_makeAlong _ _ _ _)) ?_
    rw [onward_down hstay hup]
    exact ih h

/-- What names lead through is a directory, and so nothing is made. -/
theorem makeAlong_of_leads (made : Bool) (h : f.Leads here names) :
    f.makeAlong made here names = (.ok (), f) := by
  obtain ⟨place, hfollow, hdirectory⟩ := h
  induction names generalizing here with
  | nil =>
    obtain rfl := Except.ok.inj hfollow
    rw [makeAlong, enter_eq_ok_iff.mpr hdirectory]
  | cons name names ih =>
    obtain ⟨henter, hrest⟩ := follow_cons_eq_ok_iff.mp hfollow
    have hnext : f.node? (onward here name) = some .directory := by
      cases names with
      | nil =>
        obtain rfl := Except.ok.inj hrest
        exact hdirectory
      | cons second more => exact enter_eq_ok_iff.mp (follow_cons_eq_ok_iff.mp hrest).1
    replace ih := ih hrest
    rw [makeAlong, henter]
    dsimp only
    split
    · next hstay => rwa [onward_stay hstay] at ih
    · next hstay =>
      split
      · next hup => rwa [hup, onward_up] at ih
      · next hup =>
        rw [onward_down hstay hup] at hnext ih
        rwa [hnext]

theorem gains_makeDirectories {outcome : Except FileFault Unit}
    (h : f.makeDirectories here path = (outcome, f')) : f.Gains f' := by
  obtain rfl : (f.makeDirectories here path).2 = f' := congrArg Prod.snd h
  unfold makeDirectories
  split
  · exact .refl f
  · split
    · exact .refl f
    · exact gains_makeAlong _ _ _ _

/-- A path whose directories were made leads to a directory, unless it is empty. -/
theorem makeDirectories_ok (h : f.makeDirectories here path = (.ok (), f')) (hne : path ≠ "") :
    ∃ place, f'.directoryAt here path = .ok place := by
  rw [makeDirectories, if_neg hne] at h
  split at h
  · cases h
  · have hleads := leads_makeAlong (congrArg Prod.fst h)
    rw [h] at hleads
    obtain ⟨place, hplace⟩ := hleads
    exact ⟨place, directoryAt_eq_ok_iff.mpr hplace⟩

theorem noNul_of_makeDirectories (h : f.makeDirectories here path = (.ok (), f')) :
    path.toList.any (·.toNat == 0) = false := by
  unfold makeDirectories at h
  split at h
  · next hempty =>
    rw [hempty]
    rfl
  · split at h
    · cases h
    · next hnul => exact Bool.eq_false_iff.mpr hnul

/-- Nothing is made on the way to a directory that is there. -/
theorem makeDirectories_of_directoryAt (hplace : f.directoryAt here path = .ok place)
    (h : f.makeDirectories here path = (.ok (), f')) : f' = f := by
  unfold makeDirectories at h
  split at h
  · exact (Prod.mk.inj h).2.symm
  · split at h
    · cases h
    · rw [makeAlong_of_leads false ⟨place, directoryAt_eq_ok_iff.mp hplace⟩] at h
      exact (Prod.mk.inj h).2.symm

section

variable (hname : IsName name)

include hname

theorem pieces_name : Text.pieces '/' name.toList = [name.toList] :=
  Text.pieces_of_not_mem hname.noSlash

/-- The way to a name in a directory is the way to the directory, up to a slash at its end, and the name. -/
theorem exists_front_joinPath (here : Place) (path : String) :
    startOf here (joinPath path name) = startOf here path ∧ ∃ front,
      (namesOf path = front ∨ namesOf path = front ++ [""]) ∧
        namesOf (joinPath path name) = front ++ [name] := by
  have hslash : name.toList.head? ≠ some '/' := fun h => hname.noSlash (List.mem_of_head? h)
  unfold joinPath
  rw [if_neg hslash]
  by_cases hempty : path = ""
  · subst hempty
    refine ⟨if_neg hslash, [], .inr rfl, ?_⟩
    rw [if_pos rfl, namesOf, pieces_name hname]
    simp
  · rw [if_neg hempty]
    have hne : path.toList ≠ [] := by simpa using hempty
    obtain ⟨c, rest, hchars⟩ := List.exists_cons_of_ne_nil hne
    have hstart : ∀ tail : String, startOf here (path ++ tail) = startOf here path := by
      intro tail
      rw [startOf, startOf, String.toList_append, hchars]
      rfl
    split
    · next hlast =>
      obtain ⟨front, hfront⟩ := List.getLast?_eq_some_iff.mp hlast
      refine ⟨hstart name, (Text.pieces '/' front).map String.ofList, .inr ?_, ?_⟩
      · rw [namesOf, hfront, Text.pieces_append_mark, List.map_append]
        rfl
      · rw [namesOf, String.toList_append, hfront, List.append_assoc, List.singleton_append,
          Text.pieces_append_mark, pieces_name hname, List.map_append]
        simp
    · refine ⟨?_, namesOf path, .inl rfl, ?_⟩
      · rw [String.append_assoc]
        exact hstart _
      · rw [namesOf, String.toList_append, String.toList_append, List.append_assoc,
          show "/".toList = ['/'] from rfl, List.singleton_append, Text.pieces_append_mark,
          pieces_name hname, List.map_append, namesOf]
        simp

theorem follow_name (f : Files) (q : Place) :
    f.follow q [name] = (f.enter q).map fun _ => q ++ [name] := by
  rw [follow_cons, onward_down (not_or.mpr ⟨hname.ne_empty, hname.ne_dot⟩) hname.ne_dots]
  cases f.enter q <;> rfl

theorem noNul_joinPath {path : String} (hnul : path.toList.any (·.toNat == 0) = false) :
    (joinPath path name).toList.any (·.toNat == 0) = false := by
  have hclean : name.toList.any (·.toNat == 0) = false := by
    rw [List.any_eq_false]
    intro c hc hzero
    have hnul : c = '\x00' := Char.toNat_inj.mp (eq_of_beq hzero)
    exact hname.noNul (hnul ▸ hc)
  unfold joinPath
  split
  · exact hclean
  · split
    · exact hclean
    · split
      · rw [String.toList_append, List.any_append, hnul, hclean]
        rfl
      · rw [String.toList_append, String.toList_append, List.any_append, List.any_append, hnul, hclean]
        rfl

/-- A name in the directory that a path leads to is found under the two joined. -/
theorem resolve_joinPath (f : Files) (here : Place) {path : String}
    (hnul : path.toList.any (·.toNat == 0) = false) :
    f.resolve here (joinPath path name) = (f.directoryAt here path).map (· ++ [name]) := by
  obtain ⟨hstart, front, hpath, hjoin⟩ := exists_front_joinPath hname here path
  have hne : joinPath path name ≠ "" := by
    intro h
    rw [h] at hjoin
    have hlast := congrArg List.getLast? hjoin
    rw [List.getLast?_concat] at hlast
    exact hname.ne_empty (Option.some.inj hlast).symm
  rw [resolve, if_neg hne, if_neg (Bool.eq_false_iff.mp (noNul_joinPath hname hnul)), hstart, hjoin,
    follow_append, directoryAt]
  rcases hpath with hpath | hpath
  · rw [hpath]
    cases f.follow (startOf here path) front with
    | error fault => rfl
    | ok q =>
      refine (follow_name hname f q).trans ?_
      cases henter : f.enter q <;> simp [bind, Except.bind, Except.map, henter, pure, Except.pure]
  · rw [hpath, follow_append]
    cases f.follow (startOf here path) front with
    | error fault => rfl
    | ok q =>
      refine (follow_name hname f q).trans ?_
      have hstay : f.follow q [""] = (f.enter q).map fun _ => q := by
        rw [follow, if_pos (.inl rfl)]
        cases f.enter q <;> rfl
      cases henter : f.enter q <;>
        simp [bind, Except.bind, Except.map, hstay, henter, pure, Except.pure]

end

theorem Stores.directory_iff {bytes : List UInt8} (h : f.Stores f' place bytes)
    (hplace : f.node? place ≠ some .directory) (q : Place) :
    f'.node? q = some .directory ↔ f.node? q = some .directory := by
  by_cases hq : q = place
  · subst hq
    obtain ⟨ownerOnly, hnode⟩ := h.there
    rw [hnode]
    exact iff_of_false nofun hplace
  · rw [h.others q hq]

theorem Stores.file?_place {bytes : List UInt8} (h : f.Stores f' place bytes) :
    ∃ ownerOnly, f'.file? place = some (bytes, ownerOnly) := by
  obtain ⟨ownerOnly, hnode⟩ := h.there
  exact ⟨ownerOnly, by rw [file?, hnode]⟩

theorem Stores.file?_of_ne {bytes : List UInt8} (h : f.Stores f' place bytes) (hq : q ≠ place) :
    f'.file? q = f.file? q := by
  rw [file?, file?, h.others q hq]

/-- Above everything that is in a tree there is a directory. -/
def IsTree (f : Files) : Prop :=
  ∀ place name, f.node? (place ++ [name]) ≠ none → f.node? place = some .directory

/-- The names of a way that leads down. -/
def downward (names : List String) : List String :=
  names.filter fun name => ¬ (name = "" ∨ name = ".")

theorem downward_stay (h : name = "" ∨ name = ".") : downward (name :: names) = downward names :=
  List.filter_cons_of_neg (by rw [decide_eq_true_eq]; exact not_not.mpr h)

theorem downward_cons (h : ¬ (name = "" ∨ name = ".")) :
    downward (name :: names) = name :: downward names :=
  List.filter_cons_of_pos (decide_eq_true h)

theorem eq_downward_of_follow (hnames : ".." ∉ names) (h : f.follow here names = .ok place) :
    place = here ++ downward names := by
  induction names generalizing here with
  | nil =>
    obtain rfl := Except.ok.inj h
    exact (List.append_nil _).symm
  | cons name names ih =>
    obtain ⟨hup, hnames⟩ := not_or.mp (mt List.mem_cons.mpr hnames)
    have hrest := ih hnames (follow_cons_eq_ok_iff.mp h).2
    by_cases hstay : name = "" ∨ name = "."
    · rw [downward_stay hstay, hrest, onward_stay hstay]
    · rwa [downward_cons hstay, List.append_cons, ← onward_down hstay (Ne.symm hup)]

namespace IsTree

variable (hf : f.IsTree)

include hf

theorem directory_of_append {more : List String} (h : f.node? (place ++ more) = some .directory) :
    f.node? place = some .directory := by
  induction more using List.reverseRecOn with
  | nil => rwa [List.append_nil] at h
  | append_singleton more name ih =>
    rw [← List.append_assoc] at h
    exact ih (hf _ name (by rw [h]; exact nofun))

theorem follow_downward (hnames : ".." ∉ names)
    (h : f.node? (here ++ downward names) = some .directory) :
    f.follow here names = .ok (here ++ downward names) := by
  induction names generalizing here with
  | nil => rw [follow, downward, List.filter_nil, List.append_nil]
  | cons name names ih =>
    obtain ⟨hup, hnames⟩ := not_or.mp (mt List.mem_cons.mpr hnames)
    have henter := enter_eq_ok_iff.mpr (hf.directory_of_append h)
    have hsame : here ++ downward (name :: names) = onward here name ++ downward names := by
      by_cases hstay : name = "" ∨ name = "."
      · rw [downward_stay hstay, onward_stay hstay]
      · rw [downward_cons hstay, onward_down hstay (Ne.symm hup), List.append_cons]
    rw [hsame] at h ⊢
    exact follow_cons_eq_ok_iff.mpr ⟨henter, ih hnames h⟩

/-- A path that goes down only leads to a directory with something in it already before any directory is
made for it. -/
theorem directoryAt_of_gains (hpath : ".." ∉ namesOf path)
    (hplace : f'.directoryAt here path = .ok place) (h : f.node? (place ++ [name]) ≠ none) :
    f.directoryAt here path = .ok place := by
  obtain ⟨hfollow, -⟩ := directoryAt_eq_ok_iff.mp hplace
  obtain rfl := eq_downward_of_follow hpath hfollow
  have hdirectory := hf _ _ h
  exact directoryAt_eq_ok_iff.mpr ⟨hf.follow_downward hpath hdirectory, hdirectory⟩

end IsTree

end SessionGate.Host.Files
