import Mathlib.Data.List.Nodup
import SessionGate.Lookup
import SessionGate.Proofs.Toml.Document

/-!
Documents of sections read back as they were written, but that the tables in a section come after its
values. Main statement: `read?_writeSections`.
-/

namespace SessionGate.Toml

/-- A table of which every entry takes a line. -/
structure FlatTable (entries : List (String × Toml)) : Prop where
  bare : ∀ e ∈ entries, isBareKey e.1
  flat : ∀ e ∈ entries, Flat e.2
  nodup : (entries.map Prod.fst).Nodup

def values (entries : List (String × Toml)) : Entries := entries.map fun e => (e.1, .value e.2)

theorem entriesToToml_values (entries : List (String × Toml)) :
    entriesToToml (values entries) = entries := by
  induction entries with
  | nil => rfl
  | cons e entries ih => exact congrArg (e :: ·) ih

theorem entriesToToml_append (front back : Entries) :
    entriesToToml (front ++ back) = entriesToToml front ++ entriesToToml back := by
  induction front with
  | nil => rfl
  | cons e front ih => exact congrArg ((e.1, e.2.toToml) :: ·) ih

theorem itemsToToml_values (items : List (List (String × Toml))) :
    itemsToToml (items.map values) = items.map .table := by
  induction items with
  | nil => rfl
  | cons item items ih =>
    rw [List.map_cons, itemsToToml, entriesToToml_values, ih]
    rfl

theorem lookup_append_ne {key name : String} {n : Node} {entries : Entries}
    (h : entries.lookup key = none) (hne : name ≠ key) :
    (entries ++ [(name, n)]).lookup key = none := by
  rw [List.lookup_append, h, List.lookup_cons, beq_false_of_ne hne.symm]
  rfl

section

variable {here : List String} {fill : Entries → Entries}

theorem reads_line {key : String} {v : Toml} {inner : Entries} (hplace : Place here fill)
    (hbare : isBareKey key) (hflat : Flat v) (hnew : inner.lookup key = none) :
    Reads (lineChars (key, v)) ⟨fill inner, here⟩ ⟨fill (inner ++ [(key, .value v)]), here⟩ :=
  Reads.line hbare hflat (hplace inner key v hnew)

theorem reads_lines {entries : List (String × Toml)} (hplace : Place here fill)
    (h : FlatTable entries) (inner : Entries) (hnew : ∀ e ∈ entries, inner.lookup e.1 = none) :
    Reads (entries.flatMap lineChars) ⟨fill inner, here⟩ ⟨fill (inner ++ values entries), here⟩ := by
  induction entries generalizing inner with
  | nil =>
    rw [values, List.map_nil, List.append_nil]
    exact Reads.nil _
  | cons e entries ih =>
    obtain ⟨hbare, hbares⟩ := List.forall_mem_cons.mp h.bare
    obtain ⟨hflat, hflats⟩ := List.forall_mem_cons.mp h.flat
    obtain ⟨hkey, hkeys⟩ := List.forall_mem_cons.mp hnew
    obtain ⟨hfresh, hnodup⟩ := List.nodup_cons.mp h.nodup
    have hmore := ih ⟨hbares, hflats, hnodup⟩ (inner ++ [(e.1, .value e.2)]) fun e' he' =>
      lookup_append_ne (hkeys e' he') fun heq => hfresh (heq ▸ List.mem_map_of_mem he')
    rw [List.append_assoc] at hmore
    exact (reads_line hplace hbare hflat hkey).append hmore

theorem reads_headed {entries : List (String × Toml)} {d : Document} {path : List String}
    {opening closing : List Char} (hplace : Place path fill) (h : FlatTable entries)
    (hopening : opening.head? = some '[')
    (hheader : ∀ rest, statement? d (opening ++ pathChars path ++ closing ++ ['\n'] ++ rest) =
      some (⟨fill [], path⟩, rest)) :
    Reads (headedChars opening closing path entries) d ⟨fill (values entries), path⟩ := by
  have hhead : (opening ++ pathChars path ++ closing ++ ['\n']).head? = some '[' := by
    simp [List.head?_append, hopening]
  exact (Reads.statement hhead (by unfold Solid; decide) hheader).append
    (reads_lines hplace h [] fun _ _ => rfl)

end

/-- Texts that take the reading from one root to another, wherever statements went before. -/
inductive ReadsAll : List (List Char) → Entries → Entries → Prop
  | nil (root : Entries) : ReadsAll [] root root
  | cons {text : List Char} {texts : List (List Char)} {root mid root' : Entries}
      (h : ∀ here, ∃ here', Reads text ⟨root, here⟩ ⟨mid, here'⟩) (hmore : ReadsAll texts mid root') :
      ReadsAll (text :: texts) root root'

theorem ReadsAll.append {texts more : List (List Char)} {root mid root' : Entries}
    (h : ReadsAll texts root mid) (h' : ReadsAll more mid root') :
    ReadsAll (texts ++ more) root root' := by
  induction h with
  | nil => exact h'
  | cons htext _ ih => exact .cons htext (ih h')

theorem ReadsAll.flatten {texts : List (List Char)} {root root' : Entries}
    (h : ReadsAll texts root root') (here : List String) :
    ∃ here', Reads (texts.intersperse ['\n']).flatten ⟨root, here⟩ ⟨root', here'⟩ := by
  induction h generalizing here with
  | nil root => exact ⟨here, Reads.nil _⟩
  | @cons text texts root mid root' htext hmore ih =>
    obtain ⟨between, hread⟩ := htext here
    cases texts with
    | nil =>
      cases hmore
      rw [List.intersperse_singleton, List.flatten_singleton]
      exact ⟨between, hread⟩
    | cons next texts =>
      obtain ⟨here', hreads⟩ := ih between
      rw [List.intersperse_cons_cons, List.flatten_cons, List.flatten_cons]
      exact ⟨here', hread.append ((Reads.newline _).append hreads)⟩

section

variable {pre inner : Entries} {name key : String} {entries : List (String × Toml)}

theorem reads_table (hbare : isBareKey name) (hname : pre.lookup name = none)
    (h : FlatTable entries) (here : List String) :
    Reads (headedChars ['['] [']'] [name] entries) ⟨pre, here⟩
      ⟨pre ++ [(name, .table .declared (values entries))], [name]⟩ := by
  refine reads_headed (place_section hname) h rfl fun rest => ?_
  have hchars : ['['] ++ pathChars [name] ++ [']'] ++ ['\n'] ++ rest =
      '[' :: (name.toList ++ ']' :: '\n' :: rest) := by
    simp [pathChars, keyChars, hbare]
  rw [hchars]
  exact statement?_header hbare (declareAt_fresh hname)

/-- A table with an array of tables at its end, so far of these. -/
def withTables (key : String) (inner : Entries) (items : List Entries) : Entries :=
  inner ++ (if items.isEmpty then [] else [(key, .tables items)])

theorem withTables_append (items : List Entries) (item : Entries) :
    withTables key inner (items ++ [item]) = inner ++ [(key, .tables (items ++ [item]))] := by
  simp [withTables]

theorem extend_withTables (hkey : inner.lookup key = none) (items : List Entries) :
    extend key (withTables key inner items) = some (withTables key inner (items ++ [[]])) := by
  rw [withTables_append]
  cases items with
  | nil =>
    rw [withTables, List.isEmpty_nil, if_pos rfl, List.append_nil]
    exact extend_fresh hkey
  | cons item items => exact extend_last hkey

theorem reads_item (hbare : isBareKey name) (hname : pre.lookup name = none)
    (hbareKey : isBareKey key) (hkey : inner.lookup key = none) (h : FlatTable entries)
    (items : List Entries) (here : List String) :
    Reads (headedChars ['[', '['] [']', ']'] [name, key] entries)
      ⟨pre ++ [(name, .table .declared (withTables key inner items))], here⟩
      ⟨pre ++ [(name, .table .declared (withTables key inner (items ++ [values entries])))],
        [name, key]⟩ := by
  rw [withTables_append]
  refine reads_headed (place_item items hname hkey) h rfl fun rest => ?_
  have hchars : ['[', '['] ++ pathChars [name, key] ++ [']', ']'] ++ ['\n'] ++ rest =
      '[' :: '[' :: (name.toList ++ '.' :: (key.toList ++ ']' :: ']' :: '\n' :: rest)) := by
    simp [pathChars, keyChars, hbare, hbareKey]
  rw [hchars, ← withTables_append]
  exact statement?_item hbare hbareKey (extendAt_section hname (extend_withTables hkey items))

theorem reads_items (hbare : isBareKey name) (hname : pre.lookup name = none)
    (hbareKey : isBareKey key) (hkey : inner.lookup key = none)
    {more : List (List (String × Toml))} (h : ∀ t ∈ more, FlatTable t) (items : List Entries) :
    ReadsAll (more.map (headedChars ['[', '['] [']', ']'] [name, key]))
      (pre ++ [(name, .table .declared (withTables key inner items))])
      (pre ++ [(name, .table .declared (withTables key inner (items ++ more.map values)))]) := by
  induction more generalizing items with
  | nil =>
    rw [List.map_nil, List.map_nil, List.append_nil]
    exact .nil _
  | cons t more ih =>
    obtain ⟨ht, hmore⟩ := List.forall_mem_cons.mp h
    have hreads := ih hmore (items ++ [values t])
    rw [List.append_assoc] at hreads
    exact .cons (fun here => ⟨_, reads_item hbare hname hbareKey hkey ht items here⟩) hreads

end

/-- What an entry of a section may hold: a value on its line, or tables that each have a header. -/
inductive Member : Toml → Prop
  | flat {v : Toml} (h : Flat v) : Member v
  | tables {items : List (List (String × Toml))} (hne : items ≠ [])
      (h : ∀ t ∈ items, FlatTable t) : Member (.array (items.map .table))

theorem Flat.isSection_eq_false {v : Toml} (h : Flat v) : isSection v = false := by
  cases h with
  | scalar h => cases h <;> rfl
  | @array items h =>
    cases items with
    | nil => rfl
    | cons v items => cases h v List.mem_cons_self <;> rfl

theorem isSection_tables {items : List (List (String × Toml))} (hne : items ≠ []) :
    isSection (.array (items.map .table)) = true := by
  cases items with
  | nil => exact absurd rfl hne
  | cons item items => rfl

/-- The parts of a document for the arrays of tables in a section. -/
def arraySections (name : String) (entry : String × Toml) : List (List Char) :=
  match entry.2 with
  | .array items =>
    if isSection entry.2 then items.map fun item => match item with
      | .table entries => headedChars ['[', '['] [']', ']'] [name, entry.1] entries
      | _ => []
    else []
  | _ => []

theorem sections_cons (name : String) (inner : List (String × Toml))
    (entries : List (String × Toml)) :
    sections ((name, .table inner) :: entries) =
      headedChars ['['] [']'] [name] (inner.filter fun e => !isSection e.2) ::
        inner.flatMap (arraySections name) ++ sections entries := by
  rw [sections, List.flatMap_cons]
  rfl

theorem arraySections_flat {v : Toml} (h : Flat v) (name key : String) :
    arraySections name (key, v) = [] := by
  have hsection := h.isSection_eq_false
  cases h with
  | scalar h => cases h <;> rfl
  | array h => exact if_neg (by rw [hsection]; decide)

theorem arraySections_tables {items : List (List (String × Toml))} (hne : items ≠ [])
    (name key : String) :
    arraySections name (key, .array (items.map .table)) =
      items.map (headedChars ['[', '['] [']', ']'] [name, key]) := by
  refine (if_pos (isSection_tables hne)).trans ?_
  rw [List.map_map]
  rfl

/-- A table that has a header: its values take a line each, the tables in it have headers too. -/
structure Section (entries : List (String × Toml)) : Prop where
  bare : ∀ e ∈ entries, isBareKey e.1
  member : ∀ e ∈ entries, Member e.2
  nodup : (entries.map Prod.fst).Nodup

theorem Member.flat_of_isSection {v : Toml} (h : Member v) (hvalue : isSection v = false) : Flat v := by
  cases h with
  | flat h => exact h
  | tables hne => cases (isSection_tables hne).symm.trans hvalue

theorem Section.flatTable {entries : List (String × Toml)} (h : Section entries) :
    FlatTable (entries.filter fun e => !isSection e.2) where
  bare e he := h.bare e (List.mem_filter.mp he).1
  flat e he := by
    obtain ⟨hmem, hvalue⟩ := List.mem_filter.mp he
    exact (h.member e hmem).flat_of_isSection (Bool.not_eq_true' _ ▸ hvalue)
  nodup := h.nodup.sublist (List.filter_sublist.map _)

theorem reads_arrays {pre : Entries} {name : String} {entries : List (String × Toml)}
    (hbare : isBareKey name) (hname : pre.lookup name = none) (h : Section entries)
    (inner : Entries) (hnew : ∀ e ∈ entries, isSection e.2 → inner.lookup e.1 = none) :
    ∃ filled, entriesToToml filled = entries.filter (fun e => isSection e.2) ∧
      ReadsAll (entries.flatMap (arraySections name)) (pre ++ [(name, .table .declared inner)])
        (pre ++ [(name, .table .declared (inner ++ filled))]) := by
  induction entries generalizing inner with
  | nil => exact ⟨[], rfl, by rw [List.append_nil]; exact .nil _⟩
  | cons e entries ih =>
    obtain ⟨key, v⟩ := e
    obtain ⟨hbareKey, hbares⟩ := List.forall_mem_cons.mp h.bare
    obtain ⟨hmember, hmembers⟩ := List.forall_mem_cons.mp h.member
    obtain ⟨hkey, hkeys⟩ := List.forall_mem_cons.mp hnew
    obtain ⟨hfresh, hnodup⟩ := List.nodup_cons.mp h.nodup
    have htail : Section entries := ⟨hbares, hmembers, hnodup⟩
    cases hmember with
    | flat hflat =>
      -- Written with the header of the section; nothing of it is left for here.
      obtain ⟨filled, hfilled, hreads⟩ := ih htail inner hkeys
      refine ⟨filled, ?_, ?_⟩
      · rw [List.filter_cons_of_neg (by simp [hflat.isSection_eq_false]), hfilled]
      · rw [List.flatMap_cons, arraySections_flat hflat]
        exact hreads
    | @tables items hne hitems =>
      have hnone := hkey (isSection_tables hne)
      have hhead := reads_items hbare hname hbareKey hnone hitems []
      obtain ⟨filled, hfilled, hreads⟩ := ih htail (inner ++ [(key, .tables (items.map values))])
        fun e' he' hsection => lookup_append_ne (hkeys e' he' hsection)
          fun heq => hfresh (List.mem_map.mpr ⟨e', he', heq.symm⟩)
      refine ⟨(key, .tables (items.map values)) :: filled, ?_, ?_⟩
      · rw [List.filter_cons, if_pos (isSection_tables hne), entriesToToml, hfilled, Node.toToml,
          itemsToToml_values]
      · have hfull : withTables key inner ([] ++ items.map values) =
            inner ++ [(key, .tables (items.map values))] := by
          simp [withTables, hne]
        have hempty : withTables key inner [] = inner := List.append_nil inner
        rw [hfull, hempty] at hhead
        rw [List.append_assoc] at hreads
        rw [List.flatMap_cons, arraySections_tables hne]
        exact hhead.append hreads

/-- A section the way it reads back: its values, and after them its arrays of tables. -/
def valuesFirst (entries : List (String × Toml)) : List (String × Toml) :=
  entries.filter (fun e => !isSection e.2) ++ entries.filter fun e => isSection e.2

theorem Section.lookup_values {entries : List (String × Toml)} (h : Section entries)
    {e : String × Toml} (he : e ∈ entries) (hsection : isSection e.2) :
    (values (entries.filter fun e => !isSection e.2)).lookup e.1 = none := by
  rw [List.lookup_eq_none_iff]
  intro n hn
  obtain ⟨e', he', rfl⟩ := List.mem_map.mp hn
  obtain ⟨hmem, hvalue⟩ := List.mem_filter.mp he'
  have hne : e.1 ≠ e'.1 := by
    intro hkey
    obtain rfl := List.inj_on_of_nodup_map h.nodup he hmem hkey
    simp [hsection] at hvalue
  simp [hne]

theorem reads_section {pre : Entries} {name : String} {entries : List (String × Toml)}
    (hbare : isBareKey name) (hname : pre.lookup name = none) (h : Section entries) :
    ∃ filled, entriesToToml filled = valuesFirst entries ∧
      ReadsAll (headedChars ['['] [']'] [name] (entries.filter fun e => !isSection e.2) ::
        entries.flatMap (arraySections name)) pre (pre ++ [(name, .table .declared filled)]) := by
  obtain ⟨filled, hfilled, hreads⟩ := reads_arrays hbare hname h
    (values (entries.filter fun e => !isSection e.2)) fun e he => h.lookup_values he
  refine ⟨values (entries.filter fun e => !isSection e.2) ++ filled, ?_, ?_⟩
  · rw [entriesToToml_append, entriesToToml_values, hfilled]
    rfl
  · exact .cons (fun here => ⟨_, reads_table hbare hname h.flatTable here⟩) hreads

/-- Sections under names that differ. -/
structure Sectioned (tables : List (String × List (String × Toml))) : Prop where
  bare : ∀ t ∈ tables, isBareKey t.1
  table : ∀ t ∈ tables, Section t.2
  nodup : (tables.map Prod.fst).Nodup

theorem reads_sections {tables : List (String × List (String × Toml))} (h : Sectioned tables)
    (pre : Entries) (hnew : ∀ t ∈ tables, pre.lookup t.1 = none) :
    ∃ filled, entriesToToml filled = tables.map (fun t => (t.1, .table (valuesFirst t.2))) ∧
      ReadsAll (sections (tables.map fun t => (t.1, .table t.2))) pre (pre ++ filled) := by
  induction tables generalizing pre with
  | nil => exact ⟨[], rfl, by rw [List.append_nil]; exact .nil pre⟩
  | cons t tables ih =>
    obtain ⟨hbare, hbares⟩ := List.forall_mem_cons.mp h.bare
    obtain ⟨htable, htables⟩ := List.forall_mem_cons.mp h.table
    obtain ⟨hname, hnames⟩ := List.forall_mem_cons.mp hnew
    obtain ⟨hfresh, hnodup⟩ := List.nodup_cons.mp h.nodup
    obtain ⟨inner, hinner, hreads⟩ := reads_section hbare hname htable
    obtain ⟨filled, hfilled, hmore⟩ := ih ⟨hbares, htables, hnodup⟩
      (pre ++ [(t.1, .table .declared inner)]) fun t' ht' =>
        lookup_append_ne (hnames t' ht') fun heq => hfresh (List.mem_map.mpr ⟨t', ht', heq.symm⟩)
    refine ⟨(t.1, .table .declared inner) :: filled, ?_, ?_⟩
    · rw [entriesToToml, Node.toToml, hinner, hfilled]
      rfl
    · rw [List.append_assoc] at hmore
      rw [List.map_cons, sections_cons]
      exact hreads.append hmore

theorem read?_eq {text : String} (h : text.toList.head? ≠ some '\ufeff') :
    read? text = (statements? (text.toList.length + 2) { root := [], here := [] } text.toList).map
      (entriesToToml ·.root) := by
  unfold read?
  split
  · next heq => exact absurd (by rw [heq]; rfl) h
  · rfl

theorem read?_of_reads {chars : List Char} {d : Document} (h : Reads chars ⟨[], []⟩ d)
    (hhead : chars.head? ≠ some '\ufeff') : read? (String.ofList chars) = some (entriesToToml d.root) := by
  obtain ⟨fuel, hfuel, heq⟩ := h [] (chars.length + 2) (by rw [List.append_nil]; omega)
  obtain ⟨fuel, rfl⟩ := Nat.exists_eq_succ_of_ne_zero (Nat.ne_zero_of_lt hfuel)
  rw [List.append_nil] at heq
  rw [read?_eq (by rwa [String.toList_ofList]), String.toList_ofList, heq]
  rfl

theorem head?_writeSections (entries : List (String × List (String × Toml))) :
    (writeSections (entries.map fun t => (t.1, .table t.2))).toList.head? ≠ some '\ufeff' := by
  rw [writeSections, String.toList_ofList]
  cases entries with
  | nil => rintro ⟨⟩
  | cons t entries =>
    rw [List.map_cons, sections_cons, List.cons_append]
    rw [headedChars]
    cases t.2.flatMap (arraySections t.1) ++ sections (entries.map fun t => (t.1, .table t.2)) <;>
      rintro ⟨⟩

theorem read?_writeSections {tables : List (String × List (String × Toml))} (h : Sectioned tables) :
    read? (writeSections (tables.map fun t => (t.1, .table t.2))) =
      some (tables.map fun t => (t.1, .table (valuesFirst t.2))) := by
  obtain ⟨filled, hfilled, hreads⟩ := reads_sections h [] fun _ _ => rfl
  obtain ⟨here, hread⟩ := hreads.flatten []
  have hhead := head?_writeSections tables
  rw [writeSections, String.toList_ofList] at hhead
  rw [writeSections, read?_of_reads hread hhead, ← hfilled]
  rfl

theorem lookup_of_mem {entries : List (String × Toml)} (hnodup : (entries.map Prod.fst).Nodup)
    {key : String} {v : Toml} (h : (key, v) ∈ entries) : entries.lookup key = some v := by
  induction entries with
  | nil => cases h
  | cons e entries ih =>
    obtain ⟨hfresh, hnodup⟩ := List.nodup_cons.mp hnodup
    rcases List.mem_cons.mp h with rfl | h
    · exact List.lookup_cons_self
    · have hne : key ≠ e.1 := fun heq => hfresh (List.mem_map.mpr ⟨_, h, heq⟩)
      rw [List.lookup_cons, beq_false_of_ne hne]
      exact ih hnodup h

theorem valuesFirst_perm (entries : List (String × Toml)) : (valuesFirst entries).Perm entries := by
  have h := List.filter_append_perm (fun e : String × Toml => !isSection e.2) entries
  simpa only [valuesFirst, Bool.not_not] using h

theorem lookup_valuesFirst {entries : List (String × Toml)} (h : Section entries) (key : String) :
    (valuesFirst entries).lookup key = entries.lookup key := by
  have hperm := valuesFirst_perm entries
  have hnodup : ((valuesFirst entries).map Prod.fst).Nodup := (hperm.map _).nodup_iff.mpr h.nodup
  refine Option.ext fun v => ⟨fun hv => ?_, fun hv => ?_⟩
  · exact lookup_of_mem h.nodup (hperm.mem_iff.mp (mem_of_lookup hv))
  · exact lookup_of_mem hnodup (hperm.mem_iff.mpr (mem_of_lookup hv))

end SessionGate.Toml
