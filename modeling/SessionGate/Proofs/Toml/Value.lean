import SessionGate.Proofs.Json.Number
import SessionGate.Proofs.Toml.Quoted
import SessionGate.Toml.Reader

/-!
TOML values on the right of a key read back as they were written: strings, integers, truth values and
arrays of them. Main statement: `value?_flat`.
-/

namespace SessionGate.Toml

/-- What may follow a value: the end of its line, or a mark inside an array. -/
def Ends (rest : List Char) : Prop := ∃ c ∈ rest.head?, c = '\n' ∨ c = ',' ∨ c = ']'

theorem Ends.exists_cons {rest : List Char} (h : Ends rest) :
    ∃ c more, rest = c :: more ∧ (c = '\n' ∨ c = ',' ∨ c = ']') := by
  obtain ⟨c, hc, h⟩ := h
  cases rest with
  | nil => cases hc
  | cons d more => exact ⟨d, more, rfl, Option.some.inj hc ▸ h⟩

theorem Ends.head?_ne {rest : List Char} (h : Ends rest) {c : Char}
    (hc : c ∉ ['\n', ',', ']']) : rest.head? ≠ some c := by
  obtain ⟨d, more, rfl, hd⟩ := h.exists_cons
  rintro ⟨⟩
  simp_all

theorem word_append {text rest : List Char} (htext : ∀ c ∈ text, isWordChar c) (hrest : Ends rest) :
    word (text ++ rest) = (text, rest) := by
  obtain ⟨c, more, rfl, hc⟩ := hrest.exists_cons
  have hstop : isWordChar c = false ∧ c ≠ ' ' := by
    rcases hc with rfl | rfl | rfl <;> decide
  have htake : (text ++ c :: more).takeWhile isWordChar = text := by
    rw [List.takeWhile_append_of_pos htext, List.takeWhile_cons, hstop.1]
    exact List.append_nil text
  rw [word]
  dsimp only
  rw [htake, List.drop_left]
  split
  · next h => exact absurd (List.cons.inj h).1 hstop.2
  · rfl

theorem digitIn_of_isDigit {c : Char} (h : c.isDigit) :
    digitIn 10 c = some (c.toNat - '0'.toNat) := by
  have hnat := Json.toNat_of_isDigit h
  have hrange : '0' ≤ c ∧ c ≤ '9' := by
    rw [Char.le_def, Char.le_def, UInt32.le_iff_toNat_le, UInt32.le_iff_toNat_le]
    exact hnat
  have hlt : c.toNat - '0'.toNat < 10 := by
    change c.toNat - 48 < 10
    omega
  rw [digitIn, if_pos hrange, Option.filter, if_pos (decide_eq_true hlt)]

theorem digitsAfter?_digits {chars : List Char} (h : ∀ c ∈ chars, c.isDigit) (n : Nat) :
    digitsAfter? 10 n chars = some (Nat.ofDigitChars 10 chars n) := by
  induction chars generalizing n with
  | nil => rfl
  | cons c chars ih =>
    obtain ⟨hc, hchars⟩ := List.forall_mem_cons.mp h
    have hmark : c ≠ '_' := by
      rintro rfl
      cases hc
    rw [digitsAfter?.eq_3 _ _ _ _ (fun _ _ h => absurd h hmark), digitIn_of_isDigit hc,
      Option.bind_some, ih hchars, Nat.ofDigitChars_cons, Nat.mul_comm]

theorem digits?_digits {chars : List Char} (hne : chars ≠ []) (h : ∀ c ∈ chars, c.isDigit) :
    digits? 10 chars = some (Nat.ofDigitChars 10 chars 0) := by
  cases chars with
  | nil => exact absurd rfl hne
  | cons c chars =>
    obtain ⟨hc, hchars⟩ := List.forall_mem_cons.mp h
    rw [digits?, digitIn_of_isDigit hc, Option.bind_some, digitsAfter?_digits hchars,
      Nat.ofDigitChars_cons, Nat.mul_zero, Nat.zero_add]

theorem whole?_repr (n : Nat) : whole? (Nat.repr n).toList = some n := by
  have hdigits : digits? 10 (Nat.repr n).toList = some n := by
    rw [digits?_digits _ fun c hc => Text.isDigit_of_mem_repr hc, Nat.toList_repr,
      Nat.ofDigitChars_ten_toDigits]
    rw [Nat.toList_repr]
    exact Nat.toDigits_ne_nil
  unfold whole?
  split
  · next c more h =>
    -- More than one digit: the first of them is no zero.
    have hpos : 0 < n := by
      refine Nat.pos_of_ne_zero ?_
      rintro rfl
      cases h
    have hhead := Json.head?_toDigits hpos
    rw [← Nat.toList_repr, h] at hhead
    exact absurd rfl hhead
  · exact hdigits

theorem integer?_digits {chars : List Char} (h : ∀ c ∈ chars, c.isDigit) :
    integer? chars = ((whole? chars).map Int.ofNat).bind inBounds := by
  unfold integer?
  split <;> first | rfl | simp at h

theorem integer?_writeInt {n : Int} (h : inBounds n = some n) :
    integer? (Text.writeInt n).toList = some n := by
  cases n with
  | ofNat n =>
    rw [Text.writeInt, integer?_digits fun c hc => Text.isDigit_of_mem_repr hc, whole?_repr,
      Option.map_some, Option.bind_some, h]
  | negSucc n =>
    have hchars : (Text.writeInt (.negSucc n)).toList = '-' :: (Nat.repr (n + 1)).toList := by
      rw [Text.writeInt, String.toList_append]
      rfl
    have hminus : (do pure (((← some (n + 1)) : Nat) : Int)) = some ((n + 1 : Nat) : Int) := rfl
    have hneg : -((n + 1 : Nat) : Int) = Int.negSucc n := rfl
    rw [hchars, integer?, whole?_repr, hminus, Option.map_some, Option.bind_some, hneg, h]

/-- Values of one word or one string. -/
inductive Scalar : Toml → Prop
  | string (text : String) : Scalar (.string text)
  | integer {n : Int} (h : inBounds n = some n) : Scalar (.integer n)
  | boolean (b : Bool) : Scalar (.boolean b)

theorem isWordChar_of_isDigit {c : Char} (h : c.isDigit) : isWordChar c := by
  simp [isWordChar, Char.isAlphanum, h]

theorem isWordChar_of_mem_writeInt {n : Int} {c : Char} (h : c ∈ (Text.writeInt n).toList) :
    isWordChar c := by
  cases n with
  | ofNat n => exact isWordChar_of_isDigit (Text.isDigit_of_mem_repr h)
  | negSucc n =>
    rw [Text.writeInt, String.toList_append] at h
    rcases List.mem_append.mp h with h | h
    · obtain rfl := List.mem_singleton.mp h
      decide
    · exact isWordChar_of_isDigit (Text.isDigit_of_mem_repr h)

theorem scalar?_writeInt {n : Int} (h : inBounds n = some n) :
    scalar? (Text.writeInt n).toList = some (.integer n) := by
  have hint := integer?_writeInt h
  have hword : ∀ text : List Char, integer? text = none → (Text.writeInt n).toList ≠ text := by
    rintro text htext rfl
    cases hint.symm.trans htext
  rw [scalar?, if_neg (hword _ (by decide)), if_neg (hword _ (by decide)), hint]

/-- What a value begins with tells it from an array, a table and a blank. -/
theorem stringChars_eq_cons (chars : List Char) :
    ∃ mark rest, stringChars chars = mark :: rest ∧ (mark = '"' ∨ mark = '\'') := by
  unfold stringChars
  cases formOf chars
  · exact ⟨'"', _, rfl, .inl rfl⟩
  · exact ⟨'\'', _, rfl, .inr rfl⟩
  · exact ⟨'"', _, rfl, .inl rfl⟩
  · exact ⟨'\'', _, rfl, .inr rfl⟩

theorem value?_word {fuel : Nat} {text rest : List Char} {v : Toml}
    (htext : ∀ c ∈ text, isWordChar c) (hv : scalar? text = some v) (hrest : Ends rest) :
    value? (fuel + 1) (text ++ rest) = some (v, rest) := by
  have hhead : ∀ c more, text ++ rest = c :: more → c ∉ ['"', '\'', '[', '\x7b'] := by
    intro c more h hc
    cases text with
    | nil =>
      have hnone : scalar? [] = none := by decide
      cases hnone.symm.trans hv
    | cons d text =>
      have hword := htext d List.mem_cons_self
      rw [(List.cons.inj h).1] at hword
      simp only [List.mem_cons, List.not_mem_nil, or_false] at hc
      rcases hc with rfl | rfl | rfl | rfl <;> cases hword
  rw [value?]
  · rw [word_append htext hrest]
    dsimp only
    rw [hv]
    rfl
  all_goals
    intro more h
    exact absurd (by decide) (hhead _ _ h)

theorem value?_string {fuel : Nat} {chars rest : List Char} {result : String × List Char}
    (h : string? (stringChars chars ++ rest) = some result) :
    value? (fuel + 1) (stringChars chars ++ rest) = some (.string result.1, result.2) := by
  obtain ⟨mark, more, hmark, rfl | rfl⟩ := stringChars_eq_cons chars
  all_goals
    rw [hmark, List.cons_append] at h ⊢
    rw [value?, h]
    rfl

theorem value?_scalar {fuel : Nat} {v : Toml} {rest : List Char} (hv : Scalar v)
    (hrest : Ends rest) : value? (fuel + 1) (inlineChars v ++ rest) = some (v, rest) := by
  cases hv with
  | string text =>
    have hstring : string? (stringChars text.toList ++ rest) = some (text, rest) := by
      rw [string?_stringChars (hrest.head?_ne (by decide)) (hrest.head?_ne (by decide)),
        String.ofList_toList]
    exact value?_string hstring
  | integer h => exact value?_word (fun c => isWordChar_of_mem_writeInt) (scalar?_writeInt h) hrest
  | boolean b =>
    cases b
    · exact @value?_word _ "false".toList _ _ (List.all_eq_true.mp rfl) rfl hrest
    · exact @value?_word _ "true".toList _ _ (List.all_eq_true.mp rfl) rfl hrest

/-- Neither a blank nor a comment, nor the end of a line. -/
def Solid (c : Char) : Prop := c ∉ [' ', '\t', '#', '\n', '\r']

theorem skipBlanks_solid {c : Char} (h : Solid c) (rest : List Char) :
    skipBlanks (c :: rest) = c :: rest := by
  simp only [Solid, List.mem_cons, List.not_mem_nil, or_false, not_or] at h
  exact List.dropWhile_cons_of_neg (by simp [h.1, h.2.1])

theorem skipSpace?_solid {fuel : Nat} {c : Char} (h : Solid c) (rest : List Char) :
    skipSpace? (fuel + 1) (c :: rest) = some (c :: rest) := by
  have hsolid := h
  simp only [Solid, List.mem_cons, List.not_mem_nil, or_false, not_or] at h
  rw [skipSpace?, skipBlanks_solid hsolid]
  split
  · next heq => exact absurd (List.cons.inj heq).1 h.2.2.1
  · rw [newline?_eq_none h.2.2.2]

theorem skipSpace?_newline (fuel : Nat) (rest : List Char) :
    skipSpace? (fuel + 1) ('\n' :: rest) = skipSpace? fuel rest := rfl

theorem skipSpace?_blank (fuel : Nat) (rest : List Char) :
    skipSpace? fuel (' ' :: rest) = skipSpace? fuel rest := by
  cases fuel <;> rfl

theorem inlineChars_eq_cons {v : Toml} (hv : Scalar v) :
    ∃ c rest, inlineChars v = c :: rest ∧ Solid c ∧ c ≠ ']' := by
  cases hv with
  | string text =>
    obtain ⟨mark, rest, hmark, hquote⟩ := stringChars_eq_cons text.toList
    refine ⟨mark, rest, hmark, ?_⟩
    rcases hquote with rfl | rfl <;> exact ⟨by unfold Solid; decide, by decide⟩
  | @integer n h =>
    cases n with
    | ofNat n =>
      obtain ⟨c, rest, hcons, hc⟩ := Text.repr_eq_cons n
      refine ⟨c, rest, hcons, fun hmem => ?_, fun hmark => ?_⟩
      · simp only [List.mem_cons, List.not_mem_nil, or_false] at hmem
        rcases hmem with rfl | rfl | rfl | rfl | rfl <;> cases hc
      · subst hmark
        cases hc
    | negSucc n =>
      refine ⟨'-', (Nat.repr (n + 1)).toList, ?_, by unfold Solid; decide, by decide⟩
      rw [inlineChars, Text.writeInt, String.toList_append]
      rfl
  | boolean b => cases b <;> exact ⟨_, _, rfl, by unfold Solid; decide, by decide⟩

theorem skipSpace?_scalar {v : Toml} (hv : Scalar v) (fuel : Nat) (rest : List Char) :
    skipSpace? (fuel + 1) (inlineChars v ++ rest) = some (inlineChars v ++ rest) := by
  obtain ⟨c, more, hchars, hc, -⟩ := inlineChars_eq_cons hv
  rw [hchars]
  exact skipSpace?_solid hc _

section

variable {v : Toml} {items : List Toml} {fuel : Nat} {chars more rest : List Char}

theorem items?_more (hv : Scalar v)
    (hskip : skipSpace? (chars.length + 1) chars = some (inlineChars v ++ ',' :: more))
    (h : items? (fuel + 1) more = some (items, rest)) :
    items? (fuel + 2) chars = some (v :: items, rest) := by
  obtain ⟨c, tail, hchars, -, hc⟩ := inlineChars_eq_cons hv
  have hvalue : value? (fuel + 1) (inlineChars v ++ ',' :: more) = some (v, ',' :: more) :=
    value?_scalar hv ⟨',', rfl, by decide⟩
  have hcomma : skipSpace? ((',' :: more).length + 1) (',' :: more) = some (',' :: more) :=
    skipSpace?_solid (by unfold Solid; decide) more
  rw [items?, hskip]
  rw [hchars] at hvalue ⊢
  simp only [Option.bind_eq_bind, Option.bind_some]
  split
  · next heq => exact absurd (List.cons.inj heq).1 hc
  · rw [hvalue, Option.bind_some, hcomma, Option.bind_some]
    exact congrArg (fun r : Option _ => r.bind fun x => some (v :: x.1, x.2)) h

theorem items?_last (hv : Scalar v)
    (hskip : skipSpace? (chars.length + 1) chars = some (inlineChars v ++ ']' :: rest)) :
    items? (fuel + 2) chars = some ([v], rest) := by
  obtain ⟨c, tail, hchars, -, hc⟩ := inlineChars_eq_cons hv
  have hvalue : value? (fuel + 1) (inlineChars v ++ ']' :: rest) = some (v, ']' :: rest) :=
    value?_scalar hv ⟨']', rfl, by decide⟩
  have hbracket : skipSpace? ((']' :: rest).length + 1) (']' :: rest) = some (']' :: rest) :=
    skipSpace?_solid (by unfold Solid; decide) rest
  rw [items?, hskip]
  rw [hchars] at hvalue ⊢
  simp only [Option.bind_eq_bind, Option.bind_some]
  split
  · next heq => exact absurd (List.cons.inj heq).1 hc
  · rw [hvalue, Option.bind_some, hbracket]
    rfl

theorem items?_inlineItems (hitems : ∀ v ∈ items, Scalar v) (hfuel : items.length < fuel) :
    items? (fuel + 1) ('\n' :: (inlineItems items ++ ']' :: rest)) = some (items, rest) := by
  induction items generalizing fuel with
  | nil => rfl
  | cons v items ih =>
    obtain ⟨fuel, rfl⟩ := Nat.exists_eq_succ_of_ne_zero (Nat.ne_zero_of_lt hfuel)
    obtain ⟨hv, hitems⟩ := List.forall_mem_cons.mp hitems
    have hline : inlineItems (v :: items) ++ ']' :: rest = ' ' :: ' ' :: ' ' :: ' ' ::
        (inlineChars v ++ ',' :: '\n' :: (inlineItems items ++ ']' :: rest)) := by
      simp [inlineItems, List.replicate]
    refine items?_more hv ?_ (ih hitems (Nat.lt_of_succ_lt_succ hfuel))
    rw [hline, skipSpace?_newline]
    simp only [skipSpace?_blank, List.length_cons]
    exact skipSpace?_scalar hv _ _

end

/-- Values that stand on the right of a key: no table is in them, and no array in an array. -/
inductive Flat : Toml → Prop
  | scalar {v : Toml} (h : Scalar v) : Flat v
  | array {items : List Toml} (h : ∀ v ∈ items, Scalar v) : Flat (.array items)

theorem length_le_inlineItems (items : List Toml) : items.length ≤ (inlineItems items).length := by
  induction items with
  | nil => exact Nat.le_refl 0
  | cons v items ih =>
    rw [inlineItems]
    simp only [List.length_append, List.length_cons, List.length_replicate]
    omega

theorem value?_array {fuel : Nat} {items : List Toml} {chars rest : List Char}
    (h : items? fuel chars = some (items, rest)) :
    value? (fuel + 1) ('[' :: chars) = some (.array items, rest) :=
  congrArg (Option.map fun x : List Toml × List Char => (Toml.array x.1, x.2)) h

theorem value?_flat {v : Toml} {fuel : Nat} {rest : List Char} (hv : Flat v) (hrest : Ends rest)
    (hfuel : (inlineChars v).length < fuel) :
    value? fuel (inlineChars v ++ rest) = some (v, rest) := by
  obtain ⟨fuel, rfl⟩ := Nat.exists_eq_succ_of_ne_zero (Nat.ne_zero_of_lt hfuel)
  cases hv with
  | scalar h => exact value?_scalar h hrest
  | @array items h =>
    match items with
    | [] =>
      obtain ⟨fuel, rfl⟩ := Nat.exists_eq_add_of_le' (Nat.le_of_lt_succ hfuel)
      exact value?_array rfl
    | [v] =>
      have hv := h v List.mem_cons_self
      have hchars : inlineChars (.array [v]) ++ rest = '[' :: (inlineChars v ++ ']' :: rest) := by
        simp [inlineChars]
      have hlength : 2 ≤ (inlineChars (.array [v])).length := by simp [inlineChars]
      obtain ⟨fuel, rfl⟩ := Nat.exists_eq_add_of_le' (Nat.le_trans hlength (Nat.le_of_lt_succ hfuel))
      rw [hchars]
      exact value?_array (items?_last hv (skipSpace?_scalar hv _ _))
    | v :: w :: more =>
      have hchars : inlineChars (.array (v :: w :: more)) ++ rest =
          '[' :: '\n' :: (inlineItems (v :: w :: more) ++ ']' :: rest) := by
        simp [inlineChars]
      have hlength : (v :: w :: more).length + 1 < fuel := by
        have hitems := length_le_inlineItems (v :: w :: more)
        simp only [inlineChars, List.cons_append, List.length_cons, List.length_append,
          List.length_nil] at hfuel hitems ⊢
        omega
      obtain ⟨fuel, rfl⟩ := Nat.exists_eq_succ_of_ne_zero (Nat.ne_zero_of_lt hlength)
      rw [hchars]
      exact value?_array (items?_inlineItems h (Nat.lt_of_succ_lt_succ hlength))

end SessionGate.Toml
