import SessionGate.Proofs.Toml.Value

/-!
Lines, headers of tables and headers of tables in arrays read back as they were written. Each adds at
the end of the document, so that reading one is a step from one state of the document to the next.
Main statements: `statement?_line`, `statement?_header`, `statement?_item`.
-/

namespace SessionGate.Toml

section

variable {key name : String} {n m : Node} {pre entries inner : Entries} {path : List String}

theorem put_fresh (h : entries.lookup key = none) : put key n entries = entries ++ [(key, n)] := by
  induction entries with
  | nil => rfl
  | cons entry entries ih =>
    obtain ⟨k, m⟩ := entry
    rw [List.lookup_eq_none_iff, List.forall_mem_cons, ← List.lookup_eq_none_iff] at h
    have hk : k ≠ key := fun hk => by simp [hk] at h
    rw [put, if_neg hk, ih h.2]
    rfl

theorem put_last (h : pre.lookup key = none) :
    put key n (pre ++ [(key, m)]) = pre ++ [(key, n)] := by
  induction pre with
  | nil => simp [put]
  | cons entry pre ih =>
    obtain ⟨k, m⟩ := entry
    rw [List.lookup_eq_none_iff, List.forall_mem_cons, ← List.lookup_eq_none_iff] at h
    have hk : k ≠ key := fun hk => by simp [hk] at h
    rw [List.cons_append, put, if_neg hk, ih h.2]
    rfl

theorem lookup_last (h : pre.lookup key = none) : (pre ++ [(key, n)]).lookup key = some n := by
  rw [List.lookup_append, h, List.lookup_cons_self]
  rfl

/-- A walk into the table that came last. -/
theorem walk_table {change : Entries → Option Entries} {origin : Origin} {result : Entries}
    (h : pre.lookup name = none) (hwalk : walk false change path inner = some result) :
    walk false change (name :: path) (pre ++ [(name, .table origin inner)]) =
      some (pre ++ [(name, .table origin result)]) := by
  rw [walk, lookup_last h]
  dsimp only
  rw [if_neg (by simp), hwalk]
  exact congrArg some (put_last h)

theorem walk_tables {change : Entries → Option Entries} {items : List Entries} {result : Entries}
    (h : pre.lookup name = none) (hwalk : walk false change path inner = some result) :
    walk false change (name :: path) (pre ++ [(name, .tables (items ++ [inner]))]) =
      some (pre ++ [(name, .tables (items ++ [result]))]) := by
  rw [walk, lookup_last h]
  dsimp only
  rw [if_neg (by simp), List.getLast?_concat]
  dsimp only
  rw [hwalk, List.dropLast_concat]
  exact congrArg some (put_last h)

theorem define_fresh {v : Toml} (h : entries.lookup key = none) :
    define key v entries = some (entries ++ [(key, .value v)]) := by
  rw [define, h]
  exact congrArg some (put_fresh h)

theorem declareAt_fresh (h : entries.lookup name = none) :
    declareAt [name] entries = some (entries ++ [(name, .table .declared [])]) := by
  change declare name entries = _
  rw [declare, h]
  exact congrArg some (put_fresh h)

theorem extend_fresh (h : entries.lookup key = none) :
    extend key entries = some (entries ++ [(key, .tables [[]])]) := by
  rw [extend, h]
  exact congrArg some (put_fresh h)

theorem extend_last {items : List Entries} (h : pre.lookup key = none) :
    extend key (pre ++ [(key, .tables items)]) = some (pre ++ [(key, .tables (items ++ [[]]))]) := by
  rw [extend, lookup_last h]
  exact congrArg some (put_last h)

theorem extendAt_section {change : Entries} (h : pre.lookup name = none)
    (hextend : extend key inner = some change) :
    extendAt [name, key] (pre ++ [(name, .table .declared inner)]) =
      some (pre ++ [(name, .table .declared change)]) :=
  walk_table h hextend

end

/-- A way to write a table into a document such that statements from the place `here` go to its end. -/
def Place (here : List String) (fill : Entries → Entries) : Prop :=
  ∀ inner key v, inner.lookup key = none →
    assign here [key] v (fill inner) = some (fill (inner ++ [(key, .value v)]))

theorem place_section {pre : Entries} {name : String} (h : pre.lookup name = none) :
    Place [name] fun inner => pre ++ [(name, .table .declared inner)] :=
  fun _ _ _ hkey => walk_table h (define_fresh hkey)

theorem place_item {pre inner : Entries} {name key : String} (items : List Entries)
    (h : pre.lookup name = none) (hkey : inner.lookup key = none) :
    Place [name, key] fun item =>
      pre ++ [(name, .table .declared (inner ++ [(key, .tables (items ++ [item]))]))] :=
  fun _ _ _ hitem => walk_table h (walk_tables hkey (define_fresh hitem))

section

variable {key name : String} {rest : List Char}

theorem isBareChar_of_mem (h : isBareKey key) : ∀ c ∈ key.toList, isBareChar c := by
  simp only [isBareKey, Bool.and_eq_true, List.all_eq_true] at h
  exact h.2

theorem exists_bareChar (h : isBareKey key) :
    ∃ c more, key.toList = c :: more ∧ isBareChar c ∧ ∀ d ∈ more, isBareChar d := by
  have hbare := isBareChar_of_mem h
  cases hchars : key.toList with
  | nil =>
    simp only [isBareKey, Bool.and_eq_true, decide_eq_true_eq] at h
    exact absurd (String.toList_eq_nil_iff.mp hchars) h.1
  | cons c more =>
    rw [hchars] at hbare
    obtain ⟨hc, hmore⟩ := List.forall_mem_cons.mp hbare
    exact ⟨c, more, rfl, hc, hmore⟩

theorem solid_of_isBareChar {c : Char} (h : isBareChar c) : Solid c := by
  intro hmem
  simp only [List.mem_cons, List.not_mem_nil, or_false] at hmem
  rcases hmem with rfl | rfl | rfl | rfl | rfl <;> cases h

theorem keyPart?_bare (h : isBareKey key) (hrest : ∀ c ∈ rest.head?, isBareChar c = false) :
    keyPart? (key.toList ++ rest) = some (key, rest) := by
  obtain ⟨c, more, hchars, hc, hmore⟩ := exists_bareChar h
  have hstop : rest.takeWhile isBareChar = [] := by
    cases rest with
    | nil => rfl
    | cons d rest => rw [List.takeWhile_cons, hrest d rfl]; rfl
  have htake : (c :: more ++ rest).takeWhile isBareChar = c :: more := by
    rw [List.takeWhile_append_of_pos (List.forall_mem_cons.mpr ⟨hc, hmore⟩), hstop,
      List.append_nil]
  rw [hchars]
  unfold keyPart?
  split
  · next heq => exact absurd (List.cons.inj heq).1 (ne_of_class hc (by decide))
  · next heq => exact absurd (List.cons.inj heq).1 (ne_of_class hc (by decide))
  · dsimp only
    rw [htake, if_neg (List.cons_ne_nil c more), ← hchars, String.ofList_toList, List.drop_left]

theorem skipBlanks_key (h : isBareKey key) (rest : List Char) :
    skipBlanks (key.toList ++ rest) = key.toList ++ rest := by
  obtain ⟨c, more, hchars, hc, -⟩ := exists_bareChar h
  rw [hchars]
  exact skipBlanks_solid (solid_of_isBareChar hc) _

theorem key?_one (h : isBareKey key) (fuel : Nat)
    (hrest : ∀ c ∈ rest.head?, isBareChar c = false) (hdot : (skipBlanks rest).head? ≠ some '.') :
    key? (fuel + 1) (key.toList ++ rest) = some ([key], skipBlanks rest) := by
  rw [key?, skipBlanks_key h, keyPart?_bare h hrest]
  simp only [Option.bind_eq_bind, Option.bind_some]
  split
  · next heq => exact absurd (by rw [heq]; rfl) hdot
  · rfl

theorem key?_two (hname : isBareKey name) (h : isBareKey key) (fuel : Nat)
    (hrest : ∀ c ∈ rest.head?, isBareChar c = false) (hdot : (skipBlanks rest).head? ≠ some '.') :
    key? (fuel + 2) (name.toList ++ '.' :: (key.toList ++ rest)) =
      some ([name, key], skipBlanks rest) := by
  have hstop : ∀ c ∈ ('.' :: (key.toList ++ rest)).head?, isBareChar c = false := by
    intro c hc
    obtain rfl := Option.some.inj hc
    decide
  rw [key?, skipBlanks_key hname, keyPart?_bare hname hstop]
  exact congrArg (fun r : Option _ => r.bind fun x => some (name :: x.1, x.2))
    (key?_one h fuel hrest hdot)

end

theorem afterStatement?_newline (rest : List Char) : afterStatement? ('\n' :: rest) = some rest := rfl

theorem skipBlanks_flat {v : Toml} (hv : Flat v) (rest : List Char) :
    skipBlanks (' ' :: (inlineChars v ++ rest)) = inlineChars v ++ rest := by
  obtain ⟨c, more, hchars, hc⟩ : ∃ c more, inlineChars v = c :: more ∧ Solid c := by
    cases hv with
    | scalar h =>
      obtain ⟨c, more, hchars, hc, -⟩ := inlineChars_eq_cons h
      exact ⟨c, more, hchars, hc⟩
    | @array items h =>
      match items with
      | [] | [_] | _ :: _ :: _ => exact ⟨'[', _, rfl, by unfold Solid; decide⟩
  rw [hchars]
  exact skipBlanks_solid hc _

section

variable {d : Document} {root : Entries} {name key : String} {v : Toml} {rest : List Char}

theorem statement?_key (h : isBareKey key) (rest : List Char) :
    statement? d (key.toList ++ ' ' :: '=' :: rest) =
      (value? ((key.toList ++ ' ' :: '=' :: rest).length + 1) (skipBlanks rest)).bind fun x =>
        (afterStatement? x.2).bind fun rest =>
          (assign d.here [key] x.1 d.root).bind fun root => some ({ d with root }, rest) := by
  obtain ⟨c, more, hcons, hc, -⟩ := exists_bareChar h
  have hkey : key? ((key.toList ++ ' ' :: '=' :: rest).length + 1) (key.toList ++ ' ' :: '=' :: rest) =
      some ([key], '=' :: rest) := by
    refine key?_one h _ ?_ ?_
    · rintro _ ⟨⟩
      decide
    · rintro ⟨⟩
  have hhead : ∀ {chars}, key.toList ++ ' ' :: '=' :: rest ≠ '[' :: chars := by
    intro chars heq
    rw [hcons, List.cons_append] at heq
    exact absurd (List.cons.inj heq).1 (ne_of_class hc (by decide))
  unfold statement?
  dsimp only
  split
  · next heq => exact absurd heq hhead
  · next heq => exact absurd heq hhead
  · rw [hkey]
    rfl

theorem statement?_line (h : isBareKey key) (hv : Flat v)
    (hassign : assign d.here [key] v d.root = some root) :
    statement? d (lineChars (key, v) ++ rest) = some ({ d with root }, rest) := by
  have hchars : lineChars (key, v) ++ rest =
      key.toList ++ ' ' :: '=' :: ' ' :: (inlineChars v ++ '\n' :: rest) := by
    simp [lineChars, keyChars, h]
  have hvalue : value? ((lineChars (key, v) ++ rest).length + 1) (inlineChars v ++ '\n' :: rest) =
      some (v, '\n' :: rest) := by
    refine value?_flat hv ⟨'\n', rfl, .inl rfl⟩ ?_
    rw [hchars]
    simp only [List.length_append, List.length_cons]
    omega
  rw [hchars] at hvalue ⊢
  rw [statement?_key h, skipBlanks_flat hv, hvalue, Option.bind_some, afterStatement?_newline,
    Option.bind_some, hassign, Option.bind_some]

theorem statement?_header (h : isBareKey name)
    (hdeclare : declareAt [name] d.root = some root) :
    statement? d ('[' :: (name.toList ++ ']' :: '\n' :: rest)) =
      some ({ root, here := [name] }, rest) := by
  obtain ⟨c, more, hcons, hc, -⟩ := exists_bareChar h
  have hkey : key? (('[' :: (name.toList ++ ']' :: '\n' :: rest)).length + 1)
      (name.toList ++ ']' :: '\n' :: rest) = some ([name], ']' :: '\n' :: rest) := by
    refine key?_one h _ ?_ ?_
    · rintro _ ⟨⟩
      decide
    · rintro ⟨⟩
  unfold statement?
  dsimp only
  split
  · next heq =>
    have hinner := (List.cons.inj heq).2
    rw [hcons, List.cons_append] at hinner
    exact absurd (List.cons.inj hinner).1 (ne_of_class hc (by decide))
  · next heq =>
    rw [← (List.cons.inj heq).2, hkey, Option.bind_eq_bind, Option.bind_some]
    split
    · next heq =>
      rw [← (List.cons.inj heq).2]
      simp [afterStatement?_newline, hdeclare]
    · next hno => exact absurd rfl (hno _)
  · next hno => exact absurd rfl (hno _)

theorem statement?_item (hname : isBareKey name) (h : isBareKey key)
    (hextend : extendAt [name, key] d.root = some root) :
    statement? d ('[' :: '[' :: (name.toList ++ '.' :: (key.toList ++ ']' :: ']' :: '\n' :: rest))) =
      some ({ root, here := [name, key] }, rest) := by
  have hkey : ∀ fuel, key? (fuel + 2)
      (name.toList ++ '.' :: (key.toList ++ ']' :: ']' :: '\n' :: rest)) =
        some ([name, key], ']' :: ']' :: '\n' :: rest) := by
    refine fun fuel => key?_two hname h fuel ?_ ?_
    · rintro _ ⟨⟩
      decide
    · rintro ⟨⟩
  unfold statement?
  dsimp only
  split
  · next heq =>
    rw [← (List.cons.inj (List.cons.inj heq).2).2, List.length_cons, hkey, Option.bind_eq_bind,
      Option.bind_some]
    split
    · next heq =>
      rw [← (List.cons.inj (List.cons.inj heq).2).2]
      simp [afterStatement?_newline, hextend]
    · next hno => exact absurd rfl (hno _)
  · next hno heq => exact (hno _ (List.cons.inj heq).2.symm).elim
  · next hno => exact absurd rfl (hno _)

end

/-- A text that takes the reading of a document from one state to the next. -/
def Reads (text : List Char) (d d' : Document) : Prop :=
  ∀ rest fuel, (text ++ rest).length < fuel → ∃ fuel', rest.length < fuel' ∧
    statements? fuel d (text ++ rest) = statements? fuel' d' rest

namespace Reads

variable {text more : List Char} {d d' d'' : Document}

theorem nil (d : Document) : Reads [] d d := fun _ fuel hfuel => ⟨fuel, hfuel, rfl⟩

theorem append (h : Reads text d d') (h' : Reads more d' d'') : Reads (text ++ more) d d'' := by
  intro rest fuel hfuel
  rw [List.append_assoc] at hfuel ⊢
  obtain ⟨fuel', hfuel', heq⟩ := h _ _ hfuel
  obtain ⟨fuel'', hfuel'', heq'⟩ := h' _ _ hfuel'
  exact ⟨fuel'', hfuel'', heq.trans heq'⟩

theorem newline (d : Document) : Reads ['\n'] d d := by
  intro rest fuel hfuel
  refine ⟨fuel, Nat.lt_of_succ_lt hfuel, ?_⟩
  obtain ⟨fuel, rfl⟩ := Nat.exists_eq_succ_of_ne_zero (Nat.ne_zero_of_lt hfuel)
  rfl

theorem statement {c : Char} (hhead : text.head? = some c) (hc : Solid c)
    (h : ∀ rest, statement? d (text ++ rest) = some (d', rest)) : Reads text d d' := by
  intro rest fuel hfuel
  obtain ⟨more, rfl⟩ := List.head?_eq_some_iff.mp hhead
  obtain ⟨fuel, rfl⟩ := Nat.exists_eq_succ_of_ne_zero (Nat.ne_zero_of_lt hfuel)
  have hstep := h rest
  rw [List.cons_append] at hstep hfuel ⊢
  refine ⟨fuel, ?_, ?_⟩
  · simp only [List.length_cons, List.length_append] at hfuel
    omega
  · rw [statements?, skipSpace?_solid hc, Option.bind_eq_bind, Option.bind_some]
    dsimp only
    rw [hstep]
    rfl

theorem line {key : String} {v : Toml} {root : Entries} (hbare : isBareKey key) (hflat : Flat v)
    (hassign : assign d.here [key] v d.root = some root) :
    Reads (lineChars (key, v)) d { d with root } := by
  obtain ⟨c, more, hchars, hc, -⟩ := exists_bareChar hbare
  refine .statement (c := c) ?_ (solid_of_isBareChar hc) fun rest => statement?_line hbare hflat hassign
  simp [lineChars, keyChars, hbare, hchars]

end Reads

end SessionGate.Toml
