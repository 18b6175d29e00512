import SessionGate.Proofs.Host.Paths
import SessionGate.Proofs.Setup.Saving

/-!
The configuration that counts when no path is given. The search goes from the working directory up to
the root and stops at the first directory with a file of the usual name; from there on it is as if that
file had been named. Main statement: `nearestWins`.
-/

namespace SessionGate.Setup

variable {s t : Host.System} {place bottom : Host.Place} {names : List String} {path name : String}

/-- Where the configuration of a directory is looked for. -/
def configIn (place : Host.Place) : String := pathOf place ++ "/" ++ fileName

/-- Something is there, be it a file or not. -/
def Present (s : Host.System) (place : Host.Place) : Prop :=
  s.files.contains s.here (configIn place) = true

/-- The deepest directory with a configuration, from one directory upward. -/
structure NearestFrom (s : Host.System) (bottom place : Host.Place) : Prop where
  above : place <+: bottom
  present : Present s place
  deepest : ∀ other, other <+: bottom → Present s other → other <+: place

def Nearest (s : Host.System) (place : Host.Place) : Prop := NearestFrom s s.here place

namespace NearestFrom

theorem unique {other : Host.Place} (h : NearestFrom s bottom place)
    (h' : NearestFrom s bottom other) : place = other :=
  (h'.deepest place h.above h.present).eq_of_length_le
    (h.deepest other h'.above h'.present).length_le

theorem self (h : Present s bottom) : NearestFrom s bottom bottom :=
  ⟨List.prefix_rfl, h, fun _ hother _ => hother⟩

theorem eq_self (h : NearestFrom s bottom place) (hbottom : Present s bottom) : place = bottom :=
  h.unique (.self hbottom)

/-- A directory without a configuration leaves the choice to the one above it. -/
theorem concat_iff (h : ¬ Present s (bottom ++ [name])) :
    NearestFrom s (bottom ++ [name]) place ↔ NearestFrom s bottom place := by
  have hup : ∀ other, other <+: bottom ++ [name] → Present s other → other <+: bottom := by
    intro other hother hpresent
    rcases List.prefix_concat_iff.mp hother with rfl | hother
    · exact absurd hpresent h
    · exact hother
  constructor
  · intro hnear
    exact ⟨hup place hnear.above hnear.present, hnear.present,
      fun other hother => hnear.deepest other (hother.trans (List.prefix_append ..))⟩
  · intro hnear
    exact ⟨hnear.above.trans (List.prefix_append ..), hnear.present,
      fun other hother hpresent => hnear.deepest other (hup other hother hpresent) hpresent⟩

theorem exists_of_present {other : Host.Place} (habove : other <+: bottom) (h : Present s other) :
    ∃ place, NearestFrom s bottom place := by
  induction bottom using List.reverseRecOn with
  | nil =>
    obtain rfl := List.prefix_nil.mp habove
    exact ⟨[], .self h⟩
  | append_singleton bottom name ih =>
    by_cases hbottom : Present s (bottom ++ [name])
    · exact ⟨_, .self hbottom⟩
    · rcases List.prefix_concat_iff.mp habove with rfl | habove
      · exact absurd h hbottom
      · obtain ⟨place, hnear⟩ := ih habove
        exact ⟨place, (concat_iff hbottom).mpr hnear⟩

end NearestFrom

theorem reverse_inits_concat (bottom : Host.Place) (name : String) :
    (bottom ++ [name]).inits.reverse = (bottom ++ [name]) :: bottom.inits.reverse := by
  rw [List.inits_append]
  simp

theorem upward_reverse (bottom : Host.Place) : upward bottom.reverse = bottom.inits.reverse := by
  induction bottom using List.reverseRecOn with
  | nil => rfl
  | append_singleton bottom name ih =>
    rw [List.reverse_concat, upward, ih, reverse_inits_concat, List.reverse_cons, List.reverse_reverse]

/-- The request by which a search tries a directory. -/
def looksIn (place : Host.Place) : Sigma Host.Request := ⟨Bool, .isThere (configIn place)⟩

theorem run_searchIn_cons (s : Host.System) (place : Host.Place) (places : List Host.Place) :
    s.run (searchIn (place :: places)) =
      if s.files.contains s.here (configIn place) then (.ok (configIn place), s)
      else s.run (searchIn places) := by
  refine (Host.System.run_bind_ok _ (Host.System.run_lift (.isThere (configIn place)) rfl)).trans ?_
  exact apply_ite (Host.System.run s) ..

theorem asked_searchIn_cons (s : Host.System) (place : Host.Place) (places : List Host.Place) :
    s.asked (searchIn (place :: places)) = looksIn place ::
      if s.files.contains s.here (configIn place) then [] else s.asked (searchIn places) := by
  refine (Host.System.asked_bind_ok _ (Host.System.run_lift (.isThere (configIn place)) rfl)).trans ?_
  exact congrArg (List.cons (looksIn place)) (apply_ite (Host.System.asked s) ..)

theorem searchIn_present (h : Present s place) (places : List Host.Place) :
    s.run (searchIn (place :: places)) = (.ok (configIn place), s) ∧
      s.asked (searchIn (place :: places)) = [looksIn place] :=
  ⟨(run_searchIn_cons s place places).trans (if_pos h),
    (asked_searchIn_cons s place places).trans (congrArg _ (if_pos h))⟩

theorem searchIn_absent (h : ¬ Present s place) (places : List Host.Place) :
    s.run (searchIn (place :: places)) = s.run (searchIn places) ∧
      s.asked (searchIn (place :: places)) = looksIn place :: s.asked (searchIn places) :=
  ⟨(run_searchIn_cons s place places).trans (if_neg h),
    (asked_searchIn_cons s place places).trans (congrArg _ (if_neg h))⟩

theorem searchIn_nowhere {places : List Host.Place} (h : ∀ place ∈ places, ¬ Present s place) :
    s.run (searchIn places) = (.error .noConfig, s) ∧
      s.asked (searchIn places) = places.map looksIn := by
  induction places with
  | nil => exact ⟨rfl, rfl⟩
  | cons place places ih =>
    obtain ⟨hplace, hplaces⟩ := List.forall_mem_cons.mp h
    obtain ⟨hrun, hasked⟩ := searchIn_absent hplace places
    obtain ⟨ihrun, ihasked⟩ := ih hplaces
    exact ⟨hrun.trans ihrun, by rw [hasked, ihasked, List.map_cons]⟩

/-- The directories that a search tries when it ends in `place`, in its order. -/
def tried (bottom place : Host.Place) : List Host.Place :=
  bottom.inits.reverse.filter (place <+: ·)

theorem tried_self (bottom : Host.Place) : tried bottom bottom = [bottom] := by
  induction bottom using List.reverseRecOn with
  | nil => rfl
  | append_singleton bottom name ih =>
    have hnone : ∀ other ∈ bottom.inits.reverse, ¬ (bottom ++ [name] <+: other) := by
      intro other hother hstart
      have hshort := ((List.mem_inits ..).mp (List.mem_reverse.mp hother)).length_le
      have hlong := hstart.length_le
      rw [List.length_append] at hlong
      exact absurd (hlong.trans hshort) (by simp)
    rw [tried, reverse_inits_concat, List.filter_cons_of_pos (by simp)]
    exact congrArg _ (List.filter_eq_nil_iff.mpr fun other hother => by simpa using hnone other hother)

theorem tried_concat (h : place <+: bottom) (name : String) :
    tried (bottom ++ [name]) place = (bottom ++ [name]) :: tried bottom place := by
  have hlast : place <+: bottom ++ [name] := h.trans (List.prefix_append ..)
  rw [tried, reverse_inits_concat, List.filter_cons_of_pos (by simpa using hlast), tried]

/-- The step is one directory up: either it is the nearest itself, or it decides nothing. -/
theorem searchIn_found (h : NearestFrom s bottom place) :
    s.run (searchIn bottom.inits.reverse) = (.ok (configIn place), s) ∧
      s.asked (searchIn bottom.inits.reverse) = (tried bottom place).map looksIn := by
  induction bottom using List.reverseRecOn with
  | nil =>
    obtain rfl := List.prefix_nil.mp h.above
    exact searchIn_present h.present []
  | append_singleton bottom name ih =>
    rw [reverse_inits_concat]
    by_cases hbottom : Present s (bottom ++ [name])
    · obtain rfl := h.eq_self hbottom
      rw [tried_self]
      exact searchIn_present hbottom _
    · have hnear := (NearestFrom.concat_iff hbottom).mp h
      obtain ⟨hrun, hasked⟩ := searchIn_absent hbottom bottom.inits.reverse
      obtain ⟨ihrun, ihasked⟩ := ih hnear
      rw [tried_concat hnear.above]
      exact ⟨hrun.trans ihrun, by rw [hasked, ihasked, List.map_cons]⟩

theorem run_findConfig (s : Host.System) :
    s.run findConfig = s.run (searchIn s.here.inits.reverse) := by
  rw [← upward_reverse]
  exact Host.System.run_bind_ok _ (Host.System.run_lift .workingDirectory rfl)

theorem asked_findConfig (s : Host.System) :
    s.asked findConfig = ⟨_, .workingDirectory⟩ :: s.asked (searchIn s.here.inits.reverse) := by
  rw [← upward_reverse]
  exact Host.System.asked_bind_ok _ (Host.System.run_lift .workingDirectory rfl)

theorem findConfig_found (h : Nearest s place) :
    s.run findConfig = (.ok (configIn place), s) ∧
      s.asked findConfig = ⟨_, .workingDirectory⟩ :: (tried s.here place).map looksIn := by
  obtain ⟨hrun, hasked⟩ := searchIn_found h
  exact ⟨(run_findConfig s).trans hrun, (asked_findConfig s).trans (congrArg _ hasked)⟩

theorem findConfig_nowhere (h : ∀ place, place <+: s.here → ¬ Present s place) :
    s.run findConfig = (.error .noConfig, s) ∧
      s.asked findConfig = ⟨_, .workingDirectory⟩ :: s.here.inits.reverse.map looksIn := by
  have hnone : ∀ place ∈ s.here.inits.reverse, ¬ Present s place := fun place hplace =>
    h place ((List.mem_inits ..).mp (List.mem_reverse.mp hplace))
  obtain ⟨hrun, hasked⟩ := searchIn_nowhere hnone
  exact ⟨(run_findConfig s).trans hrun, (asked_findConfig s).trans (congrArg _ hasked)⟩

theorem run_load_unread {fault : Host.FileFault} (h : s.files.read s.here path = .error fault) :
    s.run (load (some path)) = (.error .noConfig, s) :=
  Host.System.run_bind_ok _ (Host.System.run_lift (.read path) (Host.System.perform_read h))

/-- The environment is asked for as soon as there is a text to put it into. -/
theorem asked_load (s : Host.System) (path : String) :
    s.asked (load (some path)) = ⟨_, .read path⟩ ::
      match s.files.read s.here path with
      | .ok _ => [⟨_, .environment⟩]
      | .error _ => [] := by
  cases h : s.files.read s.here path with
  | error fault =>
    have hread := Host.System.perform_read h
    exact Host.System.asked_bind_ok _ (Host.System.run_lift (.read path) hread)
  | ok text =>
    have hread := Host.System.perform_read h
    refine (Host.System.asked_bind_ok _ (Host.System.run_lift (.read path) hread)).trans ?_
    refine congrArg (List.cons _) ?_
    refine (Host.System.asked_bind_ok _ (Host.System.run_lift .environment rfl)).trans ?_
    refine congrArg (List.cons _) ?_
    split <;> rfl

theorem isName_fileName : Host.IsName fileName := by decide

theorem toList_configIn (place : Host.Place) :
    (configIn place).toList = Host.slashed (place ++ [fileName]) := by
  simp [configIn, pathOf, Host.slashed, String.toList_join, List.flatMap_map]

section

variable (h : s.WellPlaced) (hplace : place <+: s.here)

include h hplace

theorem resolve_configIn : s.files.resolve s.here (configIn place) = .ok (place ++ [fileName]) := by
  refine Host.Files.resolve_names (toList_configIn place) ?_ (by simp) ?_
  · intro name hname
    rcases List.mem_append.mp hname with hname | hname
    · exact h.names name (hplace.mem hname)
    · exact List.mem_singleton.mp hname ▸ isName_fileName
  · intro front hfront hne
    rcases List.prefix_concat_iff.mp hfront with heq | hfront
    · exact absurd heq hne
    · exact h.directories front (hfront.trans hplace)

theorem present_iff : Present s place ↔ (s.files.node? (place ++ [fileName])).isSome := by
  rw [Present, Host.Files.contains, resolve_configIn h hplace]

theorem read_configIn : s.files.read s.here (configIn place) =
    match s.files.node? (place ++ [fileName]) with
    | some (.file bytes _) => Host.Files.textOf bytes
    | some .directory => .error .isDirectory
    | none => .error .notFound := by
  rw [Host.Files.read, resolve_configIn h hplace]
  rfl

/-- What can be read is a file that holds a text. -/
theorem read_configIn_eq_ok_iff {text : String} : s.files.read s.here (configIn place) = .ok text ↔
    ∃ ownerOnly, s.files.node? (place ++ [fileName]) = some (.file text.toUTF8.toList ownerOnly) := by
  rw [read_configIn h hplace]
  constructor
  · intro hread
    split at hread
    · next bytes ownerOnly hnode =>
      exact ⟨ownerOnly, Host.Files.textOf_eq_ok_iff.mp hread ▸ hnode⟩
    · cases hread
    · cases hread
  · rintro ⟨ownerOnly, hnode⟩
    rw [hnode]
    exact Host.Files.textOf_toUTF8 text

end

/-- Two systems that differ, as far as the search can see, above the nearest configuration only. -/
theorem Nearest.congr (hs : s.WellPlaced) (ht : t.WellPlaced) (hhere : t.here = s.here)
    (h : Nearest s place)
    (hbelow : ∀ below, place <+: below → below <+: s.here →
      t.files.node? (below ++ [fileName]) = s.files.node? (below ++ [fileName])) :
    Nearest t place := by
  have hsame : ∀ below, place <+: below → below <+: s.here → (Present t below ↔ Present s below) := by
    intro below hplace habove
    rw [present_iff hs habove, present_iff ht (hhere ▸ habove), hbelow below hplace habove]
  refine ⟨hhere ▸ h.above, (hsame place List.prefix_rfl h.above).mpr h.present, ?_⟩
  intro other hother hpresent
  rw [hhere] at hother
  rcases List.prefix_or_prefix_of_prefix hother h.above with hup | hdown
  · exact hup
  · exact h.deepest other hother ((hsame other hdown hother).mp hpresent)

theorem exists_nearest_or (s : Host.System) :
    (∃ place, Nearest s place) ∨ ∀ place, place <+: s.here → ¬ Present s place := by
  by_cases h : ∃ place, place <+: s.here ∧ Present s place
  · obtain ⟨place, habove, hpresent⟩ := h
    exact .inl (NearestFrom.exists_of_present habove hpresent)
  · exact .inr fun place habove hpresent => h ⟨place, habove, hpresent⟩

theorem load_found (h : Nearest s place) :
    s.run (load none) = s.run (load (some (configIn place))) ∧
      s.asked (load none) = ⟨_, .workingDirectory⟩ :: (tried s.here place).map looksIn ++
        s.asked (load (some (configIn place))) := by
  obtain ⟨hrun, hasked⟩ := findConfig_found h
  exact ⟨Host.System.run_bind_ok loadFrom hrun,
    (Host.System.asked_bind_ok loadFrom hrun).trans (congrArg (· ++ _) hasked)⟩

theorem load_nowhere (h : ∀ place, place <+: s.here → ¬ Present s place) :
    s.run (load none) = (.error .noConfig, s) ∧
      s.asked (load none) = ⟨_, .workingDirectory⟩ :: s.here.inits.reverse.map looksIn := by
  obtain ⟨hrun, hasked⟩ := findConfig_nowhere h
  exact ⟨Host.System.run_bind_error loadFrom hrun,
    (Host.System.asked_bind_error loadFrom hrun).trans hasked⟩

/-- How a search ends: nowhere, at something that is no text, or at a text. -/
inductive Ends (s : Host.System) : Prop
  | nowhere (h : ∀ place, place <+: s.here → ¬ Present s place)
      (run : s.run (load none) = (.error .noConfig, s))
  | unread {place : Host.Place} {fault : Host.FileFault} (h : Nearest s place)
      (read : s.files.read s.here (configIn place) = .error fault)
      (run : s.run (load none) = (.error .noConfig, s))
  | text {place : Host.Place} {text : String} (h : Nearest s place)
      (read : s.files.read s.here (configIn place) = .ok text)
      (run : s.run (load none) = (loaded s.environment text, s))

theorem ends (s : Host.System) : Ends s := by
  rcases exists_nearest_or s with ⟨place, h⟩ | h
  · cases hread : s.files.read s.here (configIn place) with
    | error fault => exact .unread h hread ((load_found h).1.trans (run_load_unread hread))
    | ok text => exact .text h hread ((load_found h).1.trans (run_load hread))
  · exact .nowhere h (load_nowhere h).1

theorem loaded_eq_error_iff {environment : List (String × String)} {text : String} {fault : Fault} :
    loaded environment text = .error fault ↔ fault = .badConfig ∧
      Config.ofText? (Config.interpolate (fun name => environment.lookup name) text) = none := by
  unfold loaded
  split
  · next c htext => simp [htext]
  · next htext => simp [htext, eq_comm]

theorem run_load_none_snd (s : Host.System) : (s.run (load none)).2 = s := by
  cases ends s with
  | nowhere _ run | unread _ _ run | text _ _ run => rw [run]

theorem eq_of_run_load_none {fault : Fault} (h : (s.run (load none)).1 = .error fault) :
    fault = .noConfig ∨ fault = .badConfig := by
  cases ends s with
  | nowhere _ run | unread _ _ run =>
    rw [run] at h
    exact .inl (Except.error.inj h).symm
  | text _ _ run =>
    rw [run] at h
    exact .inr (loaded_eq_error_iff.mp h).1

/-- A place with a configuration that is no text. -/
def Unreadable (s : Host.System) (place : Host.Place) : Prop :=
  ∀ text, s.files.read s.here (configIn place) ≠ .ok text

theorem load_eq_noConfig_iff : (s.run (load none)).1 = .error .noConfig ↔
    (∀ place, place <+: s.here → ¬ Present s place) ∨ ∃ place, Nearest s place ∧ Unreadable s place := by
  cases ends s with
  | nowhere h run => exact iff_of_true (by rw [run]) (.inl h)
  | unread h read run =>
    exact iff_of_true (by rw [run]) (.inr ⟨_, h, fun text => by rw [read]; nofun⟩)
  | text h read run =>
    refine iff_of_false ?_ ?_
    · rw [run, loaded_eq_error_iff]
      nofun
    · rintro (hnone | ⟨other, hother, hunread⟩)
      · exact hnone _ h.above h.present
      · obtain rfl := h.unique hother
        exact hunread _ read

theorem load_eq_badConfig_iff : (s.run (load none)).1 = .error .badConfig ↔
    ∃ place text, Nearest s place ∧ s.files.read s.here (configIn place) = .ok text ∧
      Config.ofText? (Config.interpolate (fun name => s.environment.lookup name) text) = none := by
  cases ends s with
  | nowhere h run =>
    refine iff_of_false (by rw [run]; nofun) ?_
    rintro ⟨other, _, hother, _⟩
    exact h other hother.above hother.present
  | unread h read run =>
    refine iff_of_false (by rw [run]; nofun) ?_
    rintro ⟨other, _, hother, htext, _⟩
    obtain rfl := h.unique hother
    cases read.symm.trans htext
  | text h read run =>
    rw [run, loaded_eq_error_iff]
    constructor
    · rintro ⟨-, hnone⟩
      exact ⟨_, _, h, read, hnone⟩
    · rintro ⟨other, _, hother, htext, hnone⟩
      obtain rfl := h.unique hother
      obtain rfl := Except.ok.inj (read.symm.trans htext)
      exact ⟨rfl, hnone⟩

theorem length_tried_le (bottom place : Host.Place) :
    (tried bottom place).length ≤ bottom.length + 1 := by
  refine (List.length_filter_le ..).trans ?_
  rw [List.length_reverse, List.length_inits]

theorem length_asked_load_le (s : Host.System) (path : String) :
    (s.asked (load (some path))).length ≤ 2 := by
  rw [asked_load]
  split <;> simp

theorem length_asked_le (s : Host.System) : (s.asked (load none)).length ≤ s.here.length + 4 := by
  rcases exists_nearest_or s with ⟨place, h⟩ | h
  · have htried := length_tried_le s.here place
    have hload := length_asked_load_le s (configIn place)
    rw [(load_found h).2, List.length_append, List.length_cons, List.length_map]
    omega
  · rw [(load_nowhere h).2, List.length_cons, List.length_map, List.length_reverse, List.length_inits]
    omega

theorem run_load_congr (henvironment : t.environment = s.environment)
    (h : t.files.read t.here path = s.files.read s.here path) :
    (t.run (load (some path))).1 = (s.run (load (some path))).1 := by
  cases hread : s.files.read s.here path with
  | error fault => rw [run_load_unread hread, run_load_unread (h.trans hread)]
  | ok text => rw [run_load hread, run_load (h.trans hread), henvironment]

/-- The nearest configuration file counts, and none but that one. -/
structure NearestWins (s : Host.System) : Prop where
  exists_iff : (∃ place, Nearest s place) ↔ ∃ place, place <+: s.here ∧ Present s place
  unique : ∀ place other, Nearest s place → Nearest s other → place = other
  found : ∀ place, Nearest s place → s.run (load none) = s.run (load (some (configIn place)))
  /-- No request is about a directory above the nearest, nor is one left once a file is chosen. -/
  asked : ∀ place, Nearest s place →
    s.asked (load none) = ⟨_, .workingDirectory⟩ :: (tried s.here place).map looksIn ++
      s.asked (load (some (configIn place)))
  askedOf : ∀ path, s.asked (load (some path)) = ⟨_, .read path⟩ ::
    match s.files.read s.here path with
    | .ok _ => [⟨_, .environment⟩]
    | .error _ => []
  ends : (s.asked (load none)).length ≤ s.here.length + 4
  unchanged : (s.run (load none)).2 = s
  noConfig_iff : (s.run (load none)).1 = .error .noConfig ↔
    (∀ place, place <+: s.here → ¬ Present s place) ∨ ∃ place, Nearest s place ∧ Unreadable s place
  badConfig_iff : (s.run (load none)).1 = .error .badConfig ↔
    ∃ place text, Nearest s place ∧ s.files.read s.here (configIn place) = .ok text ∧
      Config.ofText? (Config.interpolate (fun name => s.environment.lookup name) text) = none
  faults : ∀ fault, (s.run (load none)).1 = .error fault → fault = .noConfig ∨ fault = .badConfig
  present_iff : s.WellPlaced → ∀ place, place <+: s.here →
    (Present s place ↔ (s.files.node? (place ++ [fileName])).isSome)
  text_iff : s.WellPlaced → ∀ place, place <+: s.here → ∀ text,
    (s.files.read s.here (configIn place) = .ok text ↔
      ∃ ownerOnly, s.files.node? (place ++ [fileName]) = some (.file text.toUTF8.toList ownerOnly))
  /-- Whatever the directories above the nearest hold. -/
  alone : s.WellPlaced → ∀ place, Nearest s place → ∀ t : Host.System, t.WellPlaced →
    t.here = s.here → t.environment = s.environment →
    (∀ below, place <+: below → below <+: s.here →
      t.files.node? (below ++ [fileName]) = s.files.node? (below ++ [fileName])) →
    (t.run (load none)).1 = (s.run (load none)).1

theorem nearestWins (s : Host.System) : NearestWins s where
  exists_iff :=
    ⟨fun ⟨place, h⟩ => ⟨place, h.above, h.present⟩,
      fun ⟨_, habove, hpresent⟩ => NearestFrom.exists_of_present habove hpresent⟩
  unique := fun _ _ h h' => h.unique h'
  found := fun _ h => (load_found h).1
  asked := fun _ h => (load_found h).2
  askedOf := asked_load s
  ends := length_asked_le s
  unchanged := run_load_none_snd s
  noConfig_iff := load_eq_noConfig_iff
  badConfig_iff := load_eq_badConfig_iff
  faults := fun _ h => eq_of_run_load_none h
  present_iff := fun hs _ hplace => Setup.present_iff hs hplace
  text_iff := fun hs _ hplace _ => read_configIn_eq_ok_iff hs hplace
  alone := by
    intro hs place h t ht hhere henvironment hbelow
    have hnear : Nearest t place := h.congr hs ht hhere hbelow
    have hread : t.files.read t.here (configIn place) = s.files.read s.here (configIn place) := by
      rw [read_configIn hs h.above, read_configIn ht hnear.above, hbelow place List.prefix_rfl h.above]
    rw [(load_found h).1, (load_found hnear).1]
    exact run_load_congr henvironment hread

namespace Sample

/-- Two files of the usual name, the lower of them no document. -/
def nested : Host.System where
  files := ⟨[
    (["srv"], .directory),
    (["srv", "app"], .directory),
    (["srv", "app", "web"], .directory),
    (["srv", "authgate.toml"], .file "[server]".toUTF8.toList false),
    (["srv", "app", "authgate.toml"], .file "[server".toUTF8.toList false)]⟩
  here := ["srv", "app", "web"]
  environment := []
  servers := []
  input := ""
  output := []
  complaints := []
  entropy := []
  key := none

theorem wellPlaced_nested : nested.WellPlaced where
  names := by decide
  directories := by
    have hinits : ∀ place ∈ nested.here.inits, nested.files.node? place = some .directory := by
      decide
    exact fun place hplace => hinits place ((List.mem_inits ..).mpr hplace)

theorem nearest_nested : Nearest nested ["srv", "app"] := by
  have habsent : ¬ Present nested (["srv", "app"] ++ ["web"]) := by
    unfold Present
    decide +kernel
  have hpresent : Present nested ["srv", "app"] := by
    unfold Present
    decide +kernel
  exact (NearestFrom.concat_iff habsent).mpr (.self hpresent)

end Sample

theorem nearestWins_sample :
    (Sample.nested.WellPlaced ∧ Nearest Sample.nested ["srv", "app"] ∧ Present Sample.nested ["srv"]) ∧
      (Sample.nested.run (load none)).1 = .error .badConfig ∧
      Sample.nested.asked (load none) = [⟨_, .workingDirectory⟩,
        ⟨_, .isThere "/srv/app/web/authgate.toml"⟩, ⟨_, .isThere "/srv/app/authgate.toml"⟩,
        ⟨_, .read "/srv/app/authgate.toml"⟩, ⟨_, .environment⟩] := by
  have hnear := Sample.nearest_nested
  have hwins := nearestWins Sample.nested
  have hread : Sample.nested.files.read Sample.nested.here (configIn ["srv", "app"]) = .ok "[server" :=
    (hwins.text_iff Sample.wellPlaced_nested _ hnear.above _).mpr ⟨false, rfl⟩
  have hhigher : Present Sample.nested ["srv"] := by
    unfold Present
    decide +kernel
  refine ⟨⟨Sample.wellPlaced_nested, hnear, hhigher⟩, ?_, ?_⟩
  · exact hwins.badConfig_iff.mpr ⟨_, "[server", hnear, hread, by decide +kernel⟩
  · rw [hwins.asked _ hnear, hwins.askedOf, hread]
    rfl

end SessionGate.Setup
