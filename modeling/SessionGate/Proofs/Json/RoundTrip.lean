import SessionGate.Json.Writer
import SessionGate.Proofs.Json.Grammar

/-!
Every JSON value reads back as it was written: what is written spells the value, in the shortest form
that the grammar has.
-/

namespace SessionGate.Json

theorem mem_hexDigits_hexDigit : ∀ n < 16, (hexDigit n, n) ∈ hexDigits := by
  decide +kernel

theorem spells_escapeChar (c : Char) {body text : List Char} (h : Spells body text) :
    Spells (escapeChar c ++ body) (c :: text) := by
  have hofNat : ∀ {n}, c.toNat = n → c = Char.ofNat n := by
    rintro n rfl
    exact (Char.ofNat_toNat c).symm
  unfold escapeChar
  split
  · next hc => subst hc; exact .short (by decide) h
  split
  · next hc => subst hc; exact .short (by decide) h
  split
  · next hc => subst hc; exact .short (by decide) h
  split
  · next hc => subst hc; exact .short (by decide) h
  split
  · next hc => subst hc; exact .short (by decide) h
  split
  · next hc => obtain rfl := hofNat hc; exact .short (by decide) h
  split
  · next hc => obtain rfl := hofNat hc; exact .short (by decide) h
  split
  · next hlt =>
    have hzero : ('0', 0) ∈ hexDigits := by
      decide
    refine .unit ⟨0, 0, c.toNat / 16, c.toNat % 16, hzero, hzero, ?_, ?_, ?_⟩ h
    · exact mem_hexDigits_hexDigit _ (by omega)
    · exact mem_hexDigits_hexDigit _ (by omega)
    · omega
  · next hquote hescape _ _ _ _ _ hle =>
    exact .plain ⟨Nat.not_lt.mp hle, hquote, hescape⟩ h

theorem spells_flatMap_escapeChar (chars : List Char) :
    Spells (chars.flatMap escapeChar) chars := by
  induction chars with
  | nil => exact .nil
  | cons c chars ih => exact spells_escapeChar c ih

/-- What is written between quotes. For no text it is half of a pair, alone. -/
def literalBody : Option String → List Char
  | some text => text.toList.flatMap escapeChar
  | none => ['\\', 'u', 'd', '8', '0', '0']

theorem literal_eq (text : Option String) : literal text = '"' :: (literalBody text ++ ['"']) := by
  cases text with
  | none => decide
  | some text => rfl

theorem isLiteral_literalBody (text : Option String) : IsLiteral (literalBody text) text := by
  cases text with
  | none =>
    have hunit : IsUnit 'd' '8' '0' '0' 0xd800 :=
      ⟨13, 8, 0, 0, by decide, by decide, by decide, by decide, rfl⟩
    have hhigh : IsHigh 0xd800 := ⟨by decide, by decide⟩
    refine ⟨.unit hunit .nil, fun t => iff_of_false nofun fun h => ?_⟩
    obtain ⟨-, d3, d2, d1, d0, m, more, hmore, -⟩ := h.low_of_half hunit (.inl hhigh)
    cases hmore
  | some text => exact Spells.isLiteral (spells_flatMap_escapeChar text.toList)

theorem isNumber_writeInt (n : Int) : IsNumber (Text.writeInt n).toList (.integer n) := by
  cases n with
  | ofNat n =>
    have hzero : ¬(false = true ∧ n = 0) := fun h => Bool.false_ne_true h.1
    exact .integer (isWhole_repr n) hzero
  | negSucc n =>
    have hzero : ¬(true = true ∧ n + 1 = 0) := fun h => Nat.succ_ne_zero n h.2
    rw [Text.writeInt, String.toList_append]
    exact .integer (isWhole_repr (n + 1)) hzero

theorem isNumber_decimalChars (negative : Bool) (n : Nat) (exponent : Int) :
    IsNumber (decimalChars negative n exponent) (.decimal negative n exponent) := by
  have hdigits : Text.IsDigits ((Nat.repr n).toList ++ []) n :=
    (List.append_nil (Nat.repr n).toList).symm ▸ Text.isDigits_repr n
  have hpower : IsPower ('e' :: (Text.writeInt exponent).toList) (some exponent) :=
    .power (.inl rfl) (Text.isDecimal_writeInt exponent)
  have hpart : ([] : List Char) ≠ [] ∨ some exponent ≠ none ∨ negative = true ∧ n = 0 :=
    .inr (.inl nofun)
  have hnumber := IsNumber.decimal (isWhole_repr n) .absent hpower hpart hdigits
  have hvalue : (some exponent).getD 0 - (([] : List Char).length : Int) = exponent :=
    Int.sub_zero exponent
  rw [hvalue] at hnumber
  rw [decimalChars, List.append_assoc]
  exact hnumber

/-- A value as it is written: without any blank. -/
def bareItem (v : Json) : Item := ⟨[], v.chars, [], v⟩

def bareMember (m : Option String × Json) : Member := ⟨[], literalBody m.1, m.1, [], bareItem m.2⟩

theorem chars_bareItem (v : Json) : (bareItem v).chars = v.chars := by
  rw [Item.chars, bareItem, List.append_nil, List.nil_append]

theorem chars_bareMember (m : Option String × Json) :
    (bareMember m).chars = literal m.1 ++ ':' :: m.2.chars := by
  rw [Member.chars, literal_eq]
  simp [bareMember, chars_bareItem]

theorem isGap_nil : IsGap [] := nofun

theorem spaced_bareItem (v : Json) : (bareItem v).Spaced := ⟨isGap_nil, isGap_nil⟩

theorem framed_bareMember (m : Option String × Json) : (bareMember m).Framed where
  front := isGap_nil
  literal := isLiteral_literalBody m.1
  back := isGap_nil
  item := spaced_bareItem m.2

theorem charsItems_eq (items : List Json) :
    charsItems items = followed ((items.map bareItem).map Item.chars) ++ [']'] := by
  induction items with
  | nil => rfl
  | cons v items ih => simp [charsItems, ih, followed, chars_bareItem]

theorem charsMembers_eq (members : List (Option String × Json)) :
    charsMembers members = followed ((members.map bareMember).map Member.chars) ++ ['\x7d'] := by
  induction members with
  | nil => rfl
  | cons m members ih =>
    obtain ⟨name, v⟩ := m
    simp [charsMembers, ih, followed, chars_bareMember]

theorem isValue_array {items : List Json} (h : ∀ v ∈ items, IsValue v.chars v) :
    IsValue (array items).chars (.array items) := by
  have hchars : (array items).chars =
      '[' :: (listed [] ((items.map bareItem).map Item.chars) ++ [']']) := by
    cases items with
    | nil => rfl
    | cons v items => simp [chars, charsItems_eq, listed, chars_bareItem]
  have hvalues : (items.map bareItem).map Item.value = items := by
    rw [List.map_map]
    exact List.map_id items
  rw [hchars]
  nth_rewrite 2 [← hvalues]
  exact .array isGap_nil (List.forall_mem_map.mpr fun v _ => spaced_bareItem v)
    (List.forall_mem_map.mpr h)

theorem isValue_object {members : List (Option String × Json)}
    (h : ∀ m ∈ members, IsValue m.2.chars m.2) :
    IsValue (object members).chars (.object members) := by
  have hchars : (object members).chars =
      '\x7b' :: (listed [] ((members.map bareMember).map Member.chars) ++ ['\x7d']) := by
    cases members with
    | nil => rfl
    | cons m members =>
      obtain ⟨name, v⟩ := m
      simp [chars, charsMembers_eq, listed, chars_bareMember]
  have hentries : (members.map bareMember).map Member.entry = members := by
    rw [List.map_map]
    exact List.map_id members
  rw [hchars]
  nth_rewrite 2 [← hentries]
  exact .object isGap_nil (List.forall_mem_map.mpr fun m _ => framed_bareMember m)
    (List.forall_mem_map.mpr h)

mutual

theorem isValue_chars : ∀ v : Json, IsValue v.chars v
  | .null => .null
  | .bool true => .bool true
  | .bool false => .bool false
  | .integer n => .number (isNumber_writeInt n)
  | .decimal negative n exponent => .number (isNumber_decimalChars negative n exponent)
  | .string text => by
    rw [chars, literal_eq]
    exact .string (isLiteral_literalBody text)
  | .array items => isValue_array (isValue_items items)
  | .object members => isValue_object (isValue_members members)

theorem isValue_items : ∀ items : List Json, ∀ v ∈ items, IsValue v.chars v
  | [] => nofun
  | v :: items => List.forall_mem_cons.mpr ⟨isValue_chars v, isValue_items items⟩

theorem isValue_members :
    ∀ members : List (Option String × Json), ∀ m ∈ members, IsValue m.2.chars m.2
  | [] => nofun
  | (_, v) :: members => List.forall_mem_cons.mpr ⟨isValue_chars v, isValue_members members⟩

end

theorem isText_chars (v : Json) : IsText v.chars v :=
  ⟨bareItem v, chars_bareItem v, spaced_bareItem v, rfl, isValue_chars v⟩

theorem read?_chars (v : Json) : read? (bytes v.chars) = some v := (isText_chars v).read?

theorem IsText.readText? {text : String} {v : Json} (h : IsText text.toList v) :
    readText? text = some v := by
  rw [Json.readText?, toList_toUTF8]
  exact h.read?

theorem isText_write (v : Json) : IsText v.write.toList v := by
  rw [write, String.toList_ofList]
  exact isText_chars v

theorem readText?_write (v : Json) : readText? v.write = some v := (isText_write v).readText?

theorem write_inj {v w : Json} (h : v.write = w.write) : v = w := by
  have hread := readText?_write v
  rw [h, readText?_write] at hread
  exact (Option.some.inj hread).symm

end SessionGate.Json
