import SessionGate.Proofs.Toml.Line

/-!
What a document has set stays set: no later statement changes a value, not even one in a table that is
opened again, and a new table of an array comes after those that are there. Main statements:
`kept_of_statements?`, and from it `exists_string_of_quoted`.
-/

namespace SessionGate.Toml

theorem lookup_cons_eq (key k : String) (n : Node) (entries : Entries) :
    List.lookup k ((key, n) :: entries) = if k = key then some n else entries.lookup k := by
  rw [List.lookup_cons]
  by_cases h : k = key
  · rw [if_pos h, beq_iff_eq.mpr h]
  · rw [if_neg h, beq_eq_false_iff_ne.mpr h]

theorem lookup_put (key k : String) (n : Node) (entries : Entries) :
    (put key n entries).lookup k = if k = key then some n else entries.lookup k := by
  induction entries with
  | nil => exact lookup_cons_eq key k n []
  | cons entry entries ih =>
    obtain ⟨name, m⟩ := entry
    rw [put]
    by_cases hname : name = key
    · rw [if_pos hname, lookup_cons_eq, lookup_cons_eq, hname]
      split <;> rfl
    · rw [if_neg hname, lookup_cons_eq, lookup_cons_eq, ih]
      by_cases h : k = name
      · rw [if_pos h, if_pos h, if_neg (h ▸ hname)]
      · rw [if_neg h, if_neg h]

theorem lookup_entriesToToml (key : String) (entries : Entries) :
    (entriesToToml entries).lookup key = (entries.lookup key).map Node.toToml := by
  induction entries with
  | nil => rfl
  | cons entry entries ih =>
    obtain ⟨name, n⟩ := entry
    rw [entriesToToml, List.lookup_cons, List.lookup_cons, ih]
    split <;> rfl

theorem itemsToToml_eq_map (items : List Entries) :
    itemsToToml items = items.map fun entries => .table (entriesToToml entries) := by
  induction items with
  | nil => rfl
  | cons entries items ih => rw [itemsToToml, List.map_cons, ih]

/-- One step down: to a key of a table, or to an item of an array of tables. -/
inductive Step
  | key (name : String)
  | item (index : Nat)

/-- A node has a value at the end of a path. -/
def Node.Holds (v : Toml) : List Step → Node → Prop
  | [], n => n = .value v
  | .key name :: path, n => ∃ origin entries m,
      n = .table origin entries ∧ entries.lookup name = some m ∧ m.Holds v path
  | .item index :: path, n => ∃ items entries,
      n = .tables items ∧ items[index]? = some entries ∧ (Node.table .declared entries).Holds v path

/-- The steps of a walk: a key of each table, and of an array of tables some item. -/
inductive Along : List String → List Step → Prop
  | here : Along [] []
  | table (name : String) {names : List String} {path : List Step} (h : Along names path) :
      Along (name :: names) (.key name :: path)
  | tables (name : String) (index : Nat) {names : List String} {path : List Step} (h : Along names path) :
      Along (name :: names) (.key name :: .item index :: path)

/-- What is set at the end of a walk is held there. -/
theorem Node.exists_holds_of_walk {names : List String} {key : String} {v : Toml} {entries entries' : Entries}
    (h : walk false (define key v) names entries = some entries') : ∃ path, Along names path ∧
      ∀ origin, Node.Holds v (path ++ [.key key]) (.table origin entries') := by
  induction names generalizing entries entries' with
  | nil =>
    rw [walk, define] at h
    split at h
    · obtain rfl := Option.some.inj h
      exact ⟨[], .here, fun origin => ⟨origin, _, _, rfl, by rw [lookup_put, if_pos rfl], rfl⟩⟩
    · cases h
  | cons name names ih =>
    have hput : ∀ (n : Node) (origin : Origin) (path : List Step), n.Holds v path →
        Node.Holds v (.key name :: path) (.table origin (put name n entries)) := fun n origin path hpath =>
      ⟨origin, _, n, rfl, by rw [lookup_put, if_pos rfl], hpath⟩
    rw [walk] at h
    split at h
    · obtain ⟨inner, hwalk, heq⟩ := Option.bind_eq_some_iff.mp h
      obtain rfl := Option.some.inj heq
      obtain ⟨path, halong, hpath⟩ := ih hwalk
      exact ⟨_, .table name halong, fun origin => hput _ origin _ (hpath _)⟩
    · rw [if_neg fun hdotted => Bool.false_ne_true hdotted.1] at h
      obtain ⟨inner, hwalk, heq⟩ := Option.bind_eq_some_iff.mp h
      obtain rfl := Option.some.inj heq
      obtain ⟨path, halong, hpath⟩ := ih hwalk
      exact ⟨_, .table name halong, fun origin => hput _ origin _ (hpath _)⟩
    · next items _ =>
      rw [if_neg fun hdotted => Bool.false_ne_true hdotted.1] at h
      split at h
      · obtain ⟨inner, hwalk, heq⟩ := Option.bind_eq_some_iff.mp h
        obtain rfl := Option.some.inj heq
        obtain ⟨path, halong, hpath⟩ := ih hwalk
        refine ⟨_, .tables name items.dropLast.length halong, fun origin => hput _ origin _ ?_⟩
        exact ⟨_, inner, rfl, List.getElem?_concat_length, hpath .declared⟩
      · cases h
    · cases h

def Node.Kept (n n' : Node) : Prop := ∀ v path, n.Holds v path → n'.Holds v path

/-- What was set in the table that came last is in it. -/
theorem Node.holds_of_assign {pre inner root : Entries} {name key : String} {v : Toml}
    (hname : pre.lookup name = none) (hkey : inner.lookup key = none)
    (h : assign [name] [key] v (pre ++ [(name, .table .declared inner)]) = some root) (origin : Origin) :
    Node.Holds v [.key name, .key key] (.table origin root) := by
  obtain rfl := Option.some.inj ((place_section hname inner key v hkey).symm.trans h)
  exact ⟨_, _, _, rfl, lookup_last hname, _, _, _, rfl, lookup_last hkey, rfl⟩

/-- All values that are in some entries are in others, at the same paths. -/
def Kept (entries entries' : Entries) : Prop :=
  ∀ origin origin', Node.Kept (.table origin entries) (.table origin' entries')

namespace Kept

variable {entries entries' entries'' : Entries} {key : String}

theorem node (h : Kept entries entries') (origin origin' : Origin) :
    Node.Kept (.table origin entries) (.table origin' entries') := h origin origin'

theorem refl (entries : Entries) : Kept entries entries := by
  intro origin origin' v path h
  rcases path with _ | ⟨name | index, path⟩
  · cases h
  · obtain ⟨_, _, m, ⟨⟩, hm⟩ := h
    exact ⟨_, _, m, rfl, hm⟩
  · obtain ⟨_, _, ⟨⟩, _⟩ := h

theorem trans (h : Kept entries entries') (h' : Kept entries' entries'') : Kept entries entries'' :=
  fun origin origin' v path hpath => h' origin origin' v path (h origin origin v path hpath)

theorem put {n : Node} (h : ∀ m, entries.lookup key = some m → m.Kept n) :
    Kept entries (put key n entries) := by
  intro origin origin' v path hpath
  rcases path with _ | ⟨k | index, path⟩
  · cases hpath
  · obtain ⟨_, _, m, ⟨⟩, hm, hheld⟩ := hpath
    by_cases hk : k = key
    · subst hk
      exact ⟨_, _, n, rfl, by rw [lookup_put, if_pos rfl], h m hm v path hheld⟩
    · exact ⟨_, _, m, rfl, by rw [lookup_put, if_neg hk, hm], hheld⟩
  · obtain ⟨_, _, ⟨⟩, _⟩ := hpath

theorem put_new {n : Node} (h : entries.lookup key = none) : Kept entries (Toml.put key n entries) :=
  put fun m hm => by cases h.symm.trans hm

end Kept

/-- An array of tables keeps what is in its items, in the same places. -/
theorem Node.kept_of_tables {items items' : List Entries}
    (h : ∀ (i : Nat) (entries : Entries), items[i]? = some entries →
      ∃ entries', items'[i]? = some entries' ∧ Toml.Kept entries entries') :
    Node.Kept (.tables items) (.tables items') := by
  intro v path hpath
  rcases path with _ | ⟨name | i, path⟩
  · cases hpath
  · obtain ⟨_, _, _, ⟨⟩, _⟩ := hpath
  · obtain ⟨_, entries, ⟨⟩, hi, hheld⟩ := hpath
    obtain ⟨entries', hi', hkept⟩ := h i entries hi
    exact ⟨_, entries', rfl, hi', hkept _ _ v path hheld⟩

/-- Only the last of some tables changes, and keeps what is in it. -/
theorem kept_changeLast {items : List Entries} {last changed entries : Entries} {i : Nat}
    (hlast : items.getLast? = some last) (hkept : Kept last changed) (hi : items[i]? = some entries) :
    ∃ entries', (items.dropLast ++ [changed])[i]? = some entries' ∧ Kept entries entries' := by
  obtain ⟨front, rfl⟩ := List.getLast?_eq_some_iff.mp hlast
  rw [List.dropLast_concat]
  by_cases hfront : i < front.length
  · rw [List.getElem?_append_left hfront] at hi ⊢
    exact ⟨entries, hi, .refl entries⟩
  · rw [List.getElem?_append_right (Nat.not_lt.mp hfront)] at hi ⊢
    obtain ⟨hlt, hget⟩ := List.getElem?_eq_some_iff.mp hi
    have hzero : i - front.length = 0 := Nat.lt_one_iff.mp hlt
    simp only [hzero, List.getElem_cons_zero] at hget ⊢
    exact ⟨changed, rfl, hget ▸ hkept⟩

/-- A change of tables that loses no value. -/
def Lasting (change : Entries → Option Entries) : Prop :=
  ∀ entries entries', change entries = some entries' → Kept entries entries'

theorem lasting_define (key : String) (v : Toml) : Lasting (define key v) := by
  intro entries entries' h
  unfold define at h
  split at h
  · next hnone =>
    obtain rfl := Option.some.inj h
    exact .put_new hnone
  · cases h

theorem lasting_declare (key : String) : Lasting (declare key) := by
  intro entries entries' h
  unfold declare at h
  split at h
  · next hnone =>
    obtain rfl := Option.some.inj h
    exact .put_new hnone
  · next inner hinner =>
    obtain rfl := Option.some.inj h
    refine .put fun m hm => ?_
    obtain rfl := Option.some.inj (hinner.symm.trans hm)
    exact (Kept.refl inner).node _ _
  · cases h

theorem lasting_extend (key : String) : Lasting (extend key) := by
  intro entries entries' h
  unfold extend at h
  split at h
  · next hnone =>
    obtain rfl := Option.some.inj h
    exact .put_new hnone
  · next items hitems =>
    obtain rfl := Option.some.inj h
    refine .put fun m hm => ?_
    obtain rfl := Option.some.inj (hitems.symm.trans hm)
    refine Node.kept_of_tables fun i entries hi => ⟨entries, ?_, .refl entries⟩
    exact List.getElem?_append_left (List.getElem?_eq_some_iff.mp hi).1 |>.trans hi
  · cases h

theorem lasting_walk {change : Entries → Option Entries} (hchange : Lasting change) (dotted : Bool)
    (path : List String) : Lasting (walk dotted change path) := by
  induction path with
  | nil => exact hchange
  | cons key path ih =>
    intro entries entries' h
    rw [walk] at h
    split at h
    · next hnone =>
      obtain ⟨inner, -, heq⟩ := Option.bind_eq_some_iff.mp h
      obtain rfl := Option.some.inj heq
      exact .put_new hnone
    · next origin inner hinner =>
      split at h
      · cases h
      · obtain ⟨changed, hwalk, heq⟩ := Option.bind_eq_some_iff.mp h
        obtain rfl := Option.some.inj heq
        refine .put fun m hm => ?_
        obtain rfl := Option.some.inj (hinner.symm.trans hm)
        exact (ih _ _ hwalk).node _ _
    · next items hitems =>
      split at h
      · cases h
      · split at h
        · next last hlast =>
          obtain ⟨changed, hwalk, heq⟩ := Option.bind_eq_some_iff.mp h
          obtain rfl := Option.some.inj heq
          refine .put fun m hm => ?_
          obtain rfl := Option.some.inj (hitems.symm.trans hm)
          exact Node.kept_of_tables fun i entries => kept_changeLast hlast (ih _ _ hwalk)
        · cases h
    · cases h

theorem lasting_assign (here path : List String) (v : Toml) : Lasting (assign here path v) := by
  intro root root' h
  obtain ⟨⟨before, key⟩, -, hwalk⟩ := Option.bind_eq_some_iff.mp h
  exact lasting_walk (lasting_walk (lasting_define key v) true before) false here _ _ hwalk

theorem lasting_declareAt (path : List String) : Lasting (declareAt path) := by
  intro root root' h
  obtain ⟨⟨before, key⟩, -, hwalk⟩ := Option.bind_eq_some_iff.mp h
  exact lasting_walk (lasting_declare key) false before _ _ hwalk

theorem lasting_extendAt (path : List String) : Lasting (extendAt path) := by
  intro root root' h
  obtain ⟨⟨before, key⟩, -, hwalk⟩ := Option.bind_eq_some_iff.mp h
  exact lasting_walk (lasting_extend key) false before _ _ hwalk

section

variable {d d' : Document} {chars rest : List Char}

theorem kept_of_statement? (h : statement? d chars = some (d', rest)) : Kept d.root d'.root := by
  unfold statement? at h
  dsimp only at h
  split at h
  · obtain ⟨⟨path, after⟩, -, h⟩ := Option.bind_eq_some_iff.mp h
    dsimp only at h
    split at h
    · obtain ⟨last, -, h⟩ := Option.bind_eq_some_iff.mp h
      obtain ⟨root, hroot, h⟩ := Option.bind_eq_some_iff.mp h
      cases h
      exact lasting_extendAt _ _ _ hroot
    · cases h
  · obtain ⟨⟨path, after⟩, -, h⟩ := Option.bind_eq_some_iff.mp h
    dsimp only at h
    split at h
    · obtain ⟨last, -, h⟩ := Option.bind_eq_some_iff.mp h
      obtain ⟨root, hroot, h⟩ := Option.bind_eq_some_iff.mp h
      cases h
      exact lasting_declareAt _ _ _ hroot
    · cases h
  · obtain ⟨⟨path, after⟩, -, h⟩ := Option.bind_eq_some_iff.mp h
    dsimp only at h
    split at h
    · obtain ⟨⟨v, ending⟩, -, h⟩ := Option.bind_eq_some_iff.mp h
      obtain ⟨last, -, h⟩ := Option.bind_eq_some_iff.mp h
      obtain ⟨root, hroot, h⟩ := Option.bind_eq_some_iff.mp h
      cases h
      exact lasting_assign _ _ _ _ _ hroot
    · cases h

theorem kept_of_statements? {fuel : Nat} (h : statements? fuel d chars = some d') :
    Kept d.root d'.root := by
  induction fuel generalizing d chars with
  | zero => cases h
  | succ fuel ih =>
    rw [statements?] at h
    obtain ⟨start, -, h⟩ := Option.bind_eq_some_iff.mp h
    split at h
    · obtain rfl := Option.some.inj h
      exact .refl _
    · obtain ⟨⟨next, rest⟩, hstatement, h⟩ := Option.bind_eq_some_iff.mp h
      exact (kept_of_statement? hstatement).trans (ih h)

/-- Where a key is set to a string, its value is what the text from the quote on is taken for, and that is
its value in the whole document. -/
theorem exists_string_of_quoted {fuel : Nat} {key : String} {more : List Char} (hkey : isBareKey key)
    (h : statements? fuel d (key.toList ++ ' ' :: '=' :: ' ' :: '"' :: more) = some d') :
    ∃ s rest root, string? ('"' :: more) = some (s, rest) ∧
      assign d.here [key] (.string s) d.root = some root ∧ Kept root d'.root := by
  cases fuel with
  | zero => cases h
  | succ fuel =>
    obtain ⟨c, tail, hcons, hc, -⟩ := exists_bareChar hkey
    have hstart := @skipSpace?_solid
      (key.toList ++ ' ' :: '=' :: ' ' :: '"' :: more).length c (solid_of_isBareChar hc)
      (tail ++ ' ' :: '=' :: ' ' :: '"' :: more)
    rw [← List.cons_append, ← hcons] at hstart
    rw [hcons, List.cons_append] at h hstart
    rw [statements?, hstart] at h
    dsimp only [Option.bind_eq_bind, Option.bind_some] at h
    rw [← List.cons_append, ← hcons, statement?_quoted hkey] at h
    obtain ⟨⟨next, rest⟩, hstatement, hrest⟩ := Option.bind_eq_some_iff.mp h
    obtain ⟨⟨s, after⟩, hstring, hstatement⟩ := Option.bind_eq_some_iff.mp hstatement
    obtain ⟨last, -, hstatement⟩ := Option.bind_eq_some_iff.mp hstatement
    obtain ⟨root, hassign, hstatement⟩ := Option.bind_eq_some_iff.mp hstatement
    obtain ⟨rfl, rfl⟩ := Prod.mk.inj (Option.some.inj hstatement)
    exact ⟨s, after, root, hstring, hassign, kept_of_statements? hrest⟩

end

end SessionGate.Toml
