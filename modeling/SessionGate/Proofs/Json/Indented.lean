import SessionGate.Proofs.Json.RoundTrip

/-!
A value that is written with line breaks and indentation spells the same value, so that it reads back
like one without any blank. Main statement: `isText_writeIndented`.
-/

namespace SessionGate.Json

theorem isGap_lineBreak (level : Nat) : IsGap (lineBreak level) := by
  intro c hc
  rcases List.mem_cons.mp hc with rfl | hc
  · exact .inr (.inr (.inl rfl))
  · exact .inl (List.eq_of_mem_replicate hc)

theorem isGap_space : IsGap [' '] := by
  intro c hc
  exact .inl (List.mem_singleton.mp hc)

/-- A value on a line of its own, with the blanks behind it. -/
def lineItem (level : Nat) (back : List Char) (v : Json) : Item :=
  ⟨lineBreak (level + 1), v.indented (level + 1), back, v⟩

def lineMember (level : Nat) (back : List Char) (m : Option String × Json) : Member :=
  ⟨lineBreak (level + 1), literalBody m.1, m.1, [], ⟨[' '], m.2.indented (level + 1), back, m.2⟩⟩

/-- Only the last of several parts has the closing bracket's line break behind it. -/
def lines (level : Nat) (f : List Char → α → β) : List α → List β
  | [] => []
  | [a] => [f (lineBreak level) a]
  | a :: b :: rest => f [] a :: lines level f (b :: rest)

theorem lines_cons (level : Nat) (f : List Char → α → β) (a : α) (rest : List α) :
    ∃ back, IsGap back ∧ lines level f (a :: rest) = f back a :: lines level f rest := by
  cases rest with
  | nil => exact ⟨lineBreak level, isGap_lineBreak level, rfl⟩
  | cons b rest => exact ⟨[], isGap_nil, rfl⟩

theorem forall_mem_lines {level : Nat} {f : List Char → α → β} {P : β → Prop} {as : List α}
    (h : ∀ back, IsGap back → ∀ a ∈ as, P (f back a)) : ∀ b ∈ lines level f as, P b := by
  induction as with
  | nil => exact List.forall_mem_nil _
  | cons a as ih =>
    obtain ⟨back, hback, hlines⟩ := lines_cons level f a as
    rw [hlines]
    exact List.forall_mem_cons.mpr ⟨h back hback a List.mem_cons_self,
      ih fun back hback a ha => h back hback a (List.mem_cons_of_mem _ ha)⟩

theorem map_lines {level : Nat} {f : List Char → α → β} {g : β → γ} {k : α → γ}
    (h : ∀ back a, g (f back a) = k a) (as : List α) : (lines level f as).map g = as.map k := by
  induction as with
  | nil => rfl
  | cons a as ih =>
    obtain ⟨back, -, hlines⟩ := lines_cons level f a as
    rw [hlines, List.map_cons, List.map_cons, h, ih]

theorem listed_cons_cons (gap part next : List Char) (parts : List (List Char)) :
    listed gap (part :: next :: parts) = part ++ ',' :: listed gap (next :: parts) := rfl

/-- Parts that are written on lines of their own, up to the closing bracket. -/
theorem listed_lines {level : Nat} {close : Char} {f : List Char → α → β} {g : β → List Char}
    (body : α → List Char) (others : List α → List Char)
    (hpart : ∀ back a, g (f back a) = lineBreak (level + 1) ++ (body a ++ back))
    (hnil : others [] = lineBreak level ++ [close])
    (hcons : ∀ a rest, others (a :: rest) = ',' :: lineBreak (level + 1) ++ body a ++ others rest)
    (a : α) (rest : List α) : lineBreak (level + 1) ++ body a ++ others rest =
      listed [] ((lines level f (a :: rest)).map g) ++ [close] := by
  induction rest generalizing a with
  | nil =>
    rw [hnil, lines, List.map_singleton, hpart]
    simp [listed, followed]
  | cons b rest ih =>
    have hlines : ∃ first more, (lines level f (b :: rest)).map g = first :: more := by
      obtain ⟨back, -, hlines⟩ := lines_cons level f b rest
      exact ⟨_, _, congrArg (List.map g) hlines⟩
    obtain ⟨first, more, hmap⟩ := hlines
    rw [hcons, lines, List.map_cons, hpart, hmap, listed_cons_cons, ← hmap, List.append_assoc,
      List.cons_append, List.cons_append, ← List.append_assoc, ih b]
    simp

variable {level : Nat}

theorem isValue_indentedArray {items : List Json}
    (h : ∀ v ∈ items, IsValue (v.indented (level + 1)) v) :
    IsValue ((array items).indented level) (.array items) := by
  have hpart : ∀ back v, (lineItem level back v).chars =
      lineBreak (level + 1) ++ (v.indented (level + 1) ++ back) := fun _ _ => rfl
  have hchars : (array items).indented level =
      '[' :: (listed [] ((lines level (lineItem level) items).map Item.chars) ++ [']']) := by
    cases items with
    | nil => rfl
    | cons v items =>
      exact congrArg (List.cons '[') (listed_lines (indented (level + 1)) (indentedItems level) hpart
        rfl (fun _ _ => rfl) v items)
  have hvalues : (lines level (lineItem level) items).map Item.value = items :=
    (map_lines (g := Item.value) (k := id) (fun _ _ => rfl) items).trans (List.map_id items)
  rw [hchars]
  nth_rewrite 2 [← hvalues]
  exact .array isGap_nil (forall_mem_lines fun back hback _ _ => ⟨isGap_lineBreak _, hback⟩)
    (forall_mem_lines fun _ _ v hv => h v hv)

theorem isValue_indentedObject {members : List (Option String × Json)}
    (h : ∀ m ∈ members, IsValue (m.2.indented (level + 1)) m.2) :
    IsValue ((object members).indented level) (.object members) := by
  have hpart : ∀ back (m : Option String × Json), (lineMember level back m).chars =
      lineBreak (level + 1) ++ (literal m.1 ++ [':', ' '] ++ m.2.indented (level + 1) ++ back) := by
    intro back m
    rw [literal_eq]
    simp [Member.chars, Item.chars, lineMember]
  have hchars : (object members).indented level =
      '\x7b' :: (listed [] ((lines level (lineMember level) members).map Member.chars) ++ ['\x7d']) := by
    cases members with
    | nil => rfl
    | cons m members =>
      have hcons : ∀ (m : Option String × Json) rest, indentedMembers level (m :: rest) =
          ',' :: lineBreak (level + 1) ++ (literal m.1 ++ [':', ' '] ++ m.2.indented (level + 1))
            ++ indentedMembers level rest := by
        intro m rest
        simp [indentedMembers]
      rw [← listed_lines _ (indentedMembers level) hpart rfl hcons m members]
      simp [indented]
  have hentries : (lines level (lineMember level) members).map Member.entry = members :=
    (map_lines (g := Member.entry) (k := id) (fun _ _ => rfl) members).trans (List.map_id members)
  rw [hchars]
  nth_rewrite 2 [← hentries]
  refine .object isGap_nil (forall_mem_lines fun back hback m _ => ?_)
    (forall_mem_lines fun _ _ m hm => h m hm)
  exact ⟨isGap_lineBreak _, isLiteral_literalBody m.1, isGap_nil, isGap_space, hback⟩

mutual

theorem isValue_indented (level : Nat) : ∀ v : Json, IsValue (v.indented level) v
  | .null => .null
  | .bool true => .bool true
  | .bool false => .bool false
  | .integer n => .number (isNumber_writeInt n)
  | .decimal negative n exponent => .number (isNumber_decimalChars negative n exponent)
  | .string text => by
    rw [indented, literal_eq]
    exact .string (isLiteral_literalBody text)
  | .array items => isValue_indentedArray (isValue_indentedItems level items)
  | .object members => isValue_indentedObject (isValue_indentedMembers level members)

theorem isValue_indentedItems (level : Nat) :
    ∀ items : List Json, ∀ v ∈ items, IsValue (v.indented (level + 1)) v
  | [] => nofun
  | v :: items =>
    List.forall_mem_cons.mpr ⟨isValue_indented (level + 1) v, isValue_indentedItems level items⟩

theorem isValue_indentedMembers (level : Nat) : ∀ members : List (Option String × Json),
    ∀ m ∈ members, IsValue (m.2.indented (level + 1)) m.2
  | [] => nofun
  | (_, v) :: members =>
    List.forall_mem_cons.mpr ⟨isValue_indented (level + 1) v, isValue_indentedMembers level members⟩

end

theorem isText_writeIndented (v : Json) : IsText v.writeIndented.toList v := by
  refine ⟨⟨[], v.indented 0, [], v⟩, ?_, ⟨isGap_nil, isGap_nil⟩, rfl, isValue_indented 0 v⟩
  rw [writeIndented, String.toList_ofList, Item.chars, List.append_nil, List.nil_append]

end SessionGate.Json
