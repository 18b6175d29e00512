import Mathlib.Data.List.DropRight
import SessionGate.Proofs.Json.Number
import SessionGate.Proofs.Json.Spelling

/-!
The grammar of JSON with its meaning: which characters spell which value, blanks between the parts
included. Every text of the grammar is read as the value that it spells (`IsText.read?`). Lists of
items and of members follow the grammar part by part, so the induction is on how a value is spelled,
and the fuel for reading it is as much as it has characters.
-/

namespace SessionGate.Json

def IsGap (gap : List Char) : Prop := ∀ c ∈ gap, c = ' ' ∨ c = '\t' ∨ c = '\n' ∨ c = '\r'

/-- A value in a list, as it is spelled, with the blanks around it. -/
structure Item where
  front : List Char
  spelling : List Char
  back : List Char
  value : Json

/-- A named value in a list. The literal of the name is what stands between its quotes. -/
structure Member where
  front : List Char
  literal : List Char
  name : Option String
  back : List Char
  item : Item

namespace Item

def chars (i : Item) : List Char := i.front ++ (i.spelling ++ i.back)

def Spaced (i : Item) : Prop := IsGap i.front ∧ IsGap i.back

end Item

namespace Member

def chars (m : Member) : List Char :=
  m.front ++ '"' :: (m.literal ++ '"' :: (m.back ++ ':' :: m.item.chars))

def entry (m : Member) : Option String × Json := (m.name, m.item.value)

structure Framed (m : Member) : Prop where
  front : IsGap m.front
  literal : IsLiteral m.literal m.name
  back : IsGap m.back
  item : m.item.Spaced

end Member

def followed (parts : List (List Char)) : List Char := parts.flatMap (',' :: ·)

/-- Parts with commas between them, or a gap where there are none. -/
def listed (gap : List Char) : List (List Char) → List Char
  | [] => gap
  | part :: parts => part ++ followed parts

inductive IsValue : List Char → Json → Prop
  | null : IsValue "null".toList .null
  | bool (b : Bool) : IsValue (toString b).toList (.bool b)
  | number {chars v} : IsNumber chars v → IsValue chars v
  | string {body text} : IsLiteral body text → IsValue ('"' :: (body ++ ['"'])) (.string text)
  | array {gap} {items : List Item} : IsGap gap → (∀ i ∈ items, i.Spaced) →
    (∀ i ∈ items, IsValue i.spelling i.value) →
    IsValue ('[' :: (listed gap (items.map Item.chars) ++ [']'])) (.array (items.map Item.value))
  | object {gap} {members : List Member} : IsGap gap → (∀ m ∈ members, m.Framed) →
    (∀ m ∈ members, IsValue m.item.spelling m.item.value) →
    IsValue ('\x7b' :: (listed gap (members.map Member.chars) ++ ['\x7d']))
      (.object (members.map Member.entry))

/-- One value with blanks around it. -/
def IsText (chars : List Char) (v : Json) : Prop :=
  ∃ i : Item, i.chars = chars ∧ i.Spaced ∧ i.value = v ∧ IsValue i.spelling v

section Blanks

variable {gap : List Char} {rest : List UInt8}

theorem isBlankByte_of_isGap (h : IsGap gap) : ∀ b ∈ bytes gap, isBlankByte b := by
  intro b hb
  obtain ⟨c, hc, hb⟩ := List.mem_flatMap.mp hb
  rcases h c hc with rfl | rfl | rfl | rfl <;>
    · obtain rfl := List.mem_singleton.mp hb
      decide

theorem skipBlanks_gap (h : IsGap gap) : skipBlanks (bytes gap ++ rest) = skipBlanks rest :=
  List.dropWhile_append_of_pos (isBlankByte_of_isGap h)

theorem skipBlanks_cons {b : UInt8} (h : isBlankByte b = false) (rest : List UInt8) :
    skipBlanks (b :: rest) = b :: rest := by
  rw [skipBlanks, List.dropWhile_cons, h]
  rfl

theorem skipBlanks_skipBlanks : skipBlanks (skipBlanks rest) = skipBlanks rest :=
  List.dropWhile_idempotent _ _

theorem isBlankByte_of_isDigitByte {b : UInt8} (h : isDigitByte b) : isBlankByte b = false := by
  rw [Bool.eq_false_iff]
  intro hblank
  simp only [isBlankByte, Bool.or_eq_true, beq_iff_eq] at hblank
  rcases hblank with ((rfl | rfl) | rfl) | rfl <;> exact absurd h (by decide)

theorem Apart.behind (h : IsGap gap) (hrest : Apart rest) : Apart (bytes gap ++ rest) := by
  intro b hb
  cases hgap : bytes gap with
  | nil =>
    rw [hgap] at hb
    exact hrest b hb
  | cons b' more =>
    rw [hgap] at hb
    obtain rfl := Option.some.inj hb
    have hblank := isBlankByte_of_isGap h b' (hgap ▸ List.mem_cons_self)
    simp only [isBlankByte, Bool.or_eq_true, beq_iff_eq] at hblank
    rcases hblank with ((rfl | rfl) | rfl) | rfl <;> decide

theorem apart_cons {b : UInt8} (hb : b = 0x2c ∨ b = 0x5d ∨ b = 0x7d) : Apart (b :: rest) := by
  rintro b' hb'
  obtain rfl := Option.some.inj hb'
  rcases hb with rfl | rfl | rfl <;> decide

theorem readValue?_skipBlanks (fuel : Nat) (rest : List UInt8) :
    readValue? fuel (skipBlanks rest) = readValue? fuel rest := by
  cases fuel with
  | zero => rfl
  | succ fuel =>
    unfold readValue?
    rw [skipBlanks_skipBlanks]

theorem readItems?_gap (h : IsGap gap) (fuel : Nat) :
    readItems? fuel (bytes gap ++ rest) = readItems? fuel rest := by
  cases fuel with
  | zero => rfl
  | succ fuel =>
    unfold readItems?
    rw [skipBlanks_gap h]

theorem readMembers?_gap (h : IsGap gap) (fuel : Nat) :
    readMembers? fuel (bytes gap ++ rest) = readMembers? fuel rest := by
  cases fuel with
  | zero => rfl
  | succ fuel =>
    unfold readMembers?
    rw [skipBlanks_gap h]

theorem readMember?_skipBlanks (fuel : Nat) (rest : List UInt8) :
    readMember? fuel (skipBlanks rest) = readMember? fuel rest := by
  cases fuel with
  | zero => rfl
  | succ fuel =>
    unfold readMember?
    rw [skipBlanks_skipBlanks]

end Blanks

/-- With as much fuel as it has characters, a value is read whatever may stand behind it. -/
def Reads (chars : List Char) (v : Json) : Prop := ∀ (fuel : Nat) (rest : List UInt8),
  chars.length ≤ fuel → Apart rest → readValue? fuel (bytes chars ++ rest) = some (v, rest)

theorem reads_of_succ {chars : List Char} {v : Json} (hne : chars ≠ [])
    (h : ∀ fuel rest, chars.length ≤ fuel + 1 → Apart rest →
      readValue? (fuel + 1) (bytes chars ++ rest) = some (v, rest)) : Reads chars v := by
  intro fuel rest hfuel hrest
  cases fuel with
  | zero => exact absurd (List.length_eq_zero_iff.mp (Nat.le_zero.mp hfuel)) hne
  | succ fuel => exact h fuel rest hfuel hrest

theorem readValue?_of_isDigitByte {b : UInt8} (h : isDigitByte b) (fuel : Nat)
    (rest : List UInt8) : readValue? (fuel + 1) (b :: rest) = readNumber? false (b :: rest) := by
  conv => lhs; unfold readValue?
  rw [skipBlanks_cons (isBlankByte_of_isDigitByte h)]
  split
  all_goals
    first
      | rfl
      | next heq =>
        obtain ⟨rfl, -⟩ := List.cons.inj heq
        exact absurd h (by decide)

theorem IsNumber.reads {chars : List Char} {v : Json} (h : IsNumber chars v) : Reads chars v := by
  obtain ⟨negative, unsigned, rfl, ⟨b, more, hbytes, hb⟩, hread⟩ := h.read
  have hne : sign negative ++ unsigned ≠ [] := by
    intro hnil
    rw [(List.append_eq_nil_iff.mp hnil).2] at hbytes
    cases hbytes
  refine reads_of_succ hne fun fuel rest _ hrest => ?_
  cases negative with
  | true =>
    rw [← hread rest hrest]
    rfl
  | false =>
    rw [← hread rest hrest, sign, if_neg Bool.false_ne_true, List.nil_append, hbytes]
    exact readValue?_of_isDigitByte hb fuel (more ++ rest)

theorem IsLiteral.reads {body : List Char} {text : Option String} (h : IsLiteral body text) :
    Reads ('"' :: (body ++ ['"'])) (.string text) := by
  refine reads_of_succ (List.cons_ne_nil _ _) fun fuel rest _ _ => ?_
  rw [bytes_cons_of_lt (by decide), bytes_append, List.cons_append, List.append_assoc]
  change (readLiteral? (bytes body ++ 0x22 :: rest)).map _ = _
  rw [h.read]
  rfl

theorem bytes_followed_cons (part : List Char) (parts : List (List Char)) (rest : List UInt8) :
    bytes (followed (part :: parts)) ++ rest =
      0x2c :: (bytes part ++ (bytes (followed parts) ++ rest)) := by
  rw [followed, List.flatMap_cons, List.cons_append, bytes_cons_of_lt (by decide), bytes_append,
    List.cons_append, List.append_assoc]
  rfl

theorem apart_followed {b : UInt8} (hb : b = 0x5d ∨ b = 0x7d) (parts : List (List Char))
    (rest : List UInt8) : Apart (bytes (followed parts) ++ b :: rest) := by
  cases parts with
  | nil => exact apart_cons (.inr hb)
  | cons part parts =>
    rw [bytes_followed_cons]
    exact apart_cons (.inl rfl)

theorem length_followed_cons (part : List Char) (parts : List (List Char)) :
    (followed (part :: parts)).length = part.length + 1 + (followed parts).length := by
  rw [followed, List.flatMap_cons, List.length_append, List.length_cons]
  rfl

section Lists

variable {fuel : Nat} {bs more rest : List UInt8}

theorem readItems?_comma {v : Json} {items : List Json} (hv : readValue? fuel bs = some (v, more))
    (hitems : readItems? fuel more = some (items, rest)) :
    readItems? (fuel + 1) (0x2c :: bs) = some (v :: items, rest) := by
  change (readValue? fuel bs).bind _ = _
  rw [hv, Option.bind_some]
  change (readItems? fuel more).bind _ = _
  rw [hitems]
  rfl

theorem readMembers?_comma {m : Option String × Json} {members : List (Option String × Json)}
    (hm : readMember? fuel bs = some (m, more))
    (hmembers : readMembers? fuel more = some (members, rest)) :
    readMembers? (fuel + 1) (0x2c :: bs) = some (m :: members, rest) := by
  change (readMember? fuel bs).bind _ = _
  rw [hm, Option.bind_some]
  change (readMembers? fuel more).bind _ = _
  rw [hmembers]
  rfl

theorem readValue?_bracket : readValue? (fuel + 1) (0x5b :: bs) = match skipBlanks bs with
    | 0x5d :: rest => some (.array [], rest)
    | rest => (readValue? fuel rest).bind fun (v, rest) =>
      (readItems? fuel rest).bind fun (items, rest) => some (.array (v :: items), rest) := rfl

theorem readValue?_brace : readValue? (fuel + 1) (0x7b :: bs) = match skipBlanks bs with
    | 0x7d :: rest => some (.object [], rest)
    | rest => (readMember? fuel rest).bind fun (m, rest) =>
      (readMembers? fuel rest).bind fun (members, rest) => some (.object (m :: members), rest) :=
  rfl

/-- A value that is read does not begin with the bracket of an empty array. -/
theorem readValue?_array {v : Json} {items : List Json} (hv : readValue? fuel bs = some (v, more))
    (hitems : readItems? fuel more = some (items, rest)) :
    readValue? (fuel + 1) (0x5b :: bs) = some (.array (v :: items), rest) := by
  rw [readValue?_bracket]
  split
  · next heq =>
    rw [← readValue?_skipBlanks, heq] at hv
    cases fuel <;> cases hv
  · rw [readValue?_skipBlanks, hv, Option.bind_some]
    dsimp only
    rw [hitems]
    rfl

theorem readValue?_object {m : Option String × Json} {members : List (Option String × Json)}
    (hm : readMember? fuel bs = some (m, more))
    (hmembers : readMembers? fuel more = some (members, rest)) :
    readValue? (fuel + 1) (0x7b :: bs) = some (.object (m :: members), rest) := by
  rw [readValue?_brace]
  split
  · next heq =>
    rw [← readMember?_skipBlanks, heq] at hm
    cases fuel <;> cases hm
  · rw [readMember?_skipBlanks, hm, Option.bind_some]
    dsimp only
    rw [hmembers]
    rfl

theorem Item.read {i : Item} (hspaced : i.Spaced) (h : Reads i.spelling i.value)
    (hfuel : i.chars.length ≤ fuel) (hrest : Apart rest) :
    readValue? fuel (bytes i.chars ++ rest) = some (i.value, bytes i.back ++ rest) := by
  have hle : i.spelling.length ≤ fuel := by
    simp only [Item.chars, List.length_append] at hfuel
    omega
  rw [Item.chars, bytes_append, bytes_append, List.append_assoc, List.append_assoc,
    ← readValue?_skipBlanks, skipBlanks_gap hspaced.1, readValue?_skipBlanks]
  exact h fuel _ hle (hrest.behind hspaced.2)

theorem Member.read {m : Member} (hframed : m.Framed) (h : Reads m.item.spelling m.item.value)
    (hfuel : m.chars.length ≤ fuel) (hrest : Apart rest) :
    readMember? fuel (bytes m.chars ++ rest) = some (m.entry, bytes m.item.back ++ rest) := by
  simp only [Member.chars, List.length_append, List.length_cons] at hfuel
  obtain ⟨fuel, rfl⟩ : ∃ less, fuel = less + 1 := Nat.exists_eq_succ_of_ne_zero (by omega)
  have hle : m.item.chars.length ≤ fuel := by omega
  have hitem := m.item.read hframed.item h hle hrest
  have hliteral := hframed.literal.read (bytes (m.back ++ ':' :: m.item.chars) ++ rest)
  have hcolon : skipBlanks (bytes (m.back ++ ':' :: m.item.chars) ++ rest) =
      0x3a :: (bytes m.item.chars ++ rest) := by
    rw [bytes_append, List.append_assoc, skipBlanks_gap hframed.back, bytes_cons_of_lt (by decide)]
    exact skipBlanks_cons (by decide) _
  have hquote : skipBlanks (bytes m.chars ++ rest) =
      0x22 :: (bytes m.literal ++ 0x22 :: (bytes (m.back ++ ':' :: m.item.chars) ++ rest)) := by
    rw [Member.chars, bytes_append, List.append_assoc, skipBlanks_gap hframed.front,
      bytes_cons_of_lt (by decide), bytes_append, bytes_cons_of_lt (by decide), List.cons_append,
      skipBlanks_cons (by decide), List.append_assoc]
    rfl
  rw [readMember?, hquote]
  simp only [hliteral, Option.bind_eq_bind, Option.bind_some, hcolon, hitem]
  rfl

variable {gap : List Char}

/-- Items after the first, with the blanks that the first one leaves. -/
theorem readItems?_items {items : List Item} (hspaced : ∀ i ∈ items, i.Spaced)
    (h : ∀ i ∈ items, Reads i.spelling i.value) (hgap : IsGap gap)
    (hfuel : (followed (items.map Item.chars)).length < fuel) :
    readItems? fuel (bytes gap ++ (bytes (followed (items.map Item.chars)) ++ 0x5d :: rest)) =
      some (items.map Item.value, rest) := by
  obtain ⟨fuel, rfl⟩ : ∃ less, fuel = less + 1 := Nat.exists_eq_succ_of_ne_zero (by omega)
  rw [readItems?_gap hgap]
  induction items generalizing fuel gap with
  | nil => rfl
  | cons i items ih =>
    obtain ⟨hi, hitems⟩ := List.forall_mem_cons.mp hspaced
    obtain ⟨hread, hreads⟩ := List.forall_mem_cons.mp h
    rw [List.map_cons, length_followed_cons] at hfuel
    obtain ⟨fuel, rfl⟩ : ∃ less, fuel = less + 1 := Nat.exists_eq_succ_of_ne_zero (by omega)
    have hle : i.chars.length ≤ fuel + 1 := by omega
    have hlt : (followed (items.map Item.chars)).length < fuel + 1 := by omega
    have hfirst := i.read hi hread hle (apart_followed (.inl rfl) (items.map Item.chars) rest)
    have hothers := ih hitems hreads hi.2 fuel hlt
    rw [← readItems?_gap hi.2] at hothers
    rw [List.map_cons, bytes_followed_cons]
    exact readItems?_comma hfirst hothers

theorem readMembers?_members {members : List Member} (hframed : ∀ m ∈ members, m.Framed)
    (h : ∀ m ∈ members, Reads m.item.spelling m.item.value) (hgap : IsGap gap)
    (hfuel : (followed (members.map Member.chars)).length < fuel) :
    readMembers? fuel
        (bytes gap ++ (bytes (followed (members.map Member.chars)) ++ 0x7d :: rest)) =
      some (members.map Member.entry, rest) := by
  obtain ⟨fuel, rfl⟩ : ∃ less, fuel = less + 1 := Nat.exists_eq_succ_of_ne_zero (by omega)
  rw [readMembers?_gap hgap]
  induction members generalizing fuel gap with
  | nil => rfl
  | cons m members ih =>
    obtain ⟨hm, hmembers⟩ := List.forall_mem_cons.mp hframed
    obtain ⟨hread, hreads⟩ := List.forall_mem_cons.mp h
    rw [List.map_cons, length_followed_cons] at hfuel
    obtain ⟨fuel, rfl⟩ : ∃ less, fuel = less + 1 := Nat.exists_eq_succ_of_ne_zero (by omega)
    have hle : m.chars.length ≤ fuel + 1 := by omega
    have hlt : (followed (members.map Member.chars)).length < fuel + 1 := by omega
    have hfirst := m.read hm hread hle (apart_followed (.inr rfl) (members.map Member.chars) rest)
    have hothers := ih hmembers hreads hm.item.2 fuel hlt
    rw [← readMembers?_gap hm.item.2] at hothers
    rw [List.map_cons, bytes_followed_cons]
    exact readMembers?_comma hfirst hothers

theorem reads_array {items : List Item} (hgap : IsGap gap) (hspaced : ∀ i ∈ items, i.Spaced)
    (h : ∀ i ∈ items, Reads i.spelling i.value) :
    Reads ('[' :: (listed gap (items.map Item.chars) ++ [']'])) (.array (items.map Item.value)) := by
  refine reads_of_succ (List.cons_ne_nil _ _) fun fuel rest hfuel _ => ?_
  rw [bytes_cons_of_lt (by decide), bytes_append, List.cons_append, List.append_assoc]
  cases items with
  | nil =>
    change readValue? (fuel + 1) (0x5b :: (bytes gap ++ 0x5d :: rest)) = _
    rw [readValue?_bracket, skipBlanks_gap hgap]
    rfl
  | cons i items =>
    obtain ⟨hi, hitems⟩ := List.forall_mem_cons.mp hspaced
    obtain ⟨hread, hreads⟩ := List.forall_mem_cons.mp h
    simp only [listed, List.map_cons, List.length_append, List.length_cons] at hfuel
    have hle : i.chars.length ≤ fuel := by omega
    have hlt : (followed (items.map Item.chars)).length < fuel := by omega
    rw [List.map_cons, listed, bytes_append, List.append_assoc]
    exact readValue?_array (i.read hi hread hle (apart_followed (.inl rfl) _ _))
      (readItems?_items hitems hreads hi.2 hlt)

theorem reads_object {members : List Member} (hgap : IsGap gap)
    (hframed : ∀ m ∈ members, m.Framed)
    (h : ∀ m ∈ members, Reads m.item.spelling m.item.value) :
    Reads ('\x7b' :: (listed gap (members.map Member.chars) ++ ['\x7d']))
      (.object (members.map Member.entry)) := by
  refine reads_of_succ (List.cons_ne_nil _ _) fun fuel rest hfuel _ => ?_
  rw [bytes_cons_of_lt (by decide), bytes_append, List.cons_append, List.append_assoc]
  cases members with
  | nil =>
    change readValue? (fuel + 1) (0x7b :: (bytes gap ++ 0x7d :: rest)) = _
    rw [readValue?_brace, skipBlanks_gap hgap]
    rfl
  | cons m members =>
    obtain ⟨hm, hmembers⟩ := List.forall_mem_cons.mp hframed
    obtain ⟨hread, hreads⟩ := List.forall_mem_cons.mp h
    simp only [listed, List.map_cons, List.length_append, List.length_cons] at hfuel
    have hle : m.chars.length ≤ fuel := by omega
    have hlt : (followed (members.map Member.chars)).length < fuel := by omega
    rw [List.map_cons, listed, bytes_append, List.append_assoc]
    exact readValue?_object (m.read hm hread hle (apart_followed (.inr rfl) _ _))
      (readMembers?_members hmembers hreads hm.item.2 hlt)

end Lists

theorem IsValue.reads {chars : List Char} {v : Json} (h : IsValue chars v) : Reads chars v := by
  induction h with
  | null => exact reads_of_succ (by decide) fun _ _ _ _ => rfl
  | bool b => cases b <;> exact reads_of_succ (by decide) fun _ _ _ _ => rfl
  | number h => exact h.reads
  | string h => exact h.reads
  | array hgap hspaced _ ih => exact reads_array hgap hspaced ih
  | object hgap hframed _ ih => exact reads_object hgap hframed ih

theorem length_le_length_bytes (chars : List Char) : chars.length ≤ (bytes chars).length := by
  induction chars with
  | nil => exact Nat.le_refl 0
  | cons c chars ih =>
    have hpos : 0 < (String.utf8EncodeChar c).length :=
      List.length_pos_iff.mpr String.utf8EncodeChar_ne_nil
    rw [bytes_cons, List.length_cons, List.length_append]
    omega

theorem IsText.read? {chars : List Char} {v : Json} (h : IsText chars v) :
    read? (bytes chars) = some v := by
  obtain ⟨i, rfl, hspaced, rfl, hvalue⟩ := h
  have hfuel : i.chars.length ≤ fuelFor (bytes i.chars) := by
    have hle := length_le_length_bytes i.chars
    rw [fuelFor]
    omega
  have hend : Apart [] := nofun
  have hread := i.read hspaced hvalue.reads hfuel hend
  have hback : skipBlanks (bytes i.back ++ []) = [] := skipBlanks_gap hspaced.2
  rw [List.append_nil] at hread
  rw [Json.read?, hread]
  exact if_pos hback

end SessionGate.Json
