import Mathlib.Algebra.Group.Int.Defs
import SessionGate.Proofs.Except
import SessionGate.Text.Decimal

/-!
The grammar of decimal integers: a sign or none and then digits, zeros in front allowed. A text is read
exactly if it spells an integer that fits (`readInt64_eq_ok_iff`, `readNatUpTo_eq_some_iff`), and so
integers read back as they were written.
-/

namespace SessionGate.Text

theorem le_ofDigitChars (chars : List Char) (n : Nat) : n ≤ Nat.ofDigitChars 10 chars n := by
  induction chars generalizing n with
  | nil => exact Nat.le_refl n
  | cons c rest ih =>
    rw [Nat.ofDigitChars_cons]
    have h := ih (10 * n + (c.toNat - '0'.toNat))
    omega

/-- At least one digit; together they tell the number. -/
structure IsDigits (chars : List Char) (n : Nat) : Prop where
  nonempty : chars ≠ []
  digits : ∀ c ∈ chars, c.isDigit = true
  value : Nat.ofDigitChars 10 chars 0 = n

inductive IsDecimal : List Char → Int → Prop
  | bare {digits : List Char} {n : Nat} (h : IsDigits digits n) : IsDecimal digits n
  | plus {digits : List Char} {n : Nat} (h : IsDigits digits n) : IsDecimal ('+' :: digits) n
  | minus {digits : List Char} {n : Nat} (h : IsDigits digits n) : IsDecimal ('-' :: digits) (-n)

theorem isDigit_of_mem_repr {n : Nat} {c : Char} (hc : c ∈ (Nat.repr n).toList) : c.isDigit := by
  rw [Nat.toList_repr] at hc
  exact Nat.isDigit_of_mem_toDigits (by decide) (by decide) hc

theorem isDigits_repr (n : Nat) : IsDigits (Nat.repr n).toList n where
  nonempty := by
    rw [Nat.toList_repr]
    exact Nat.toDigits_ne_nil
  digits c hc := isDigit_of_mem_repr hc
  value := by rw [Nat.toList_repr, Nat.ofDigitChars_ten_toDigits]

theorem repr_eq_cons (n : Nat) : ∃ c rest, (Nat.repr n).toList = c :: rest ∧ c.isDigit := by
  obtain ⟨c, rest, h⟩ := List.exists_cons_of_ne_nil (isDigits_repr n).nonempty
  exact ⟨c, rest, h, isDigit_of_mem_repr (h ▸ List.mem_cons_self)⟩

theorem isDecimal_writeInt (z : Int) : IsDecimal (writeInt z).toList z := by
  cases z with
  | ofNat n => exact .bare (isDigits_repr n)
  | negSucc n =>
    rw [writeInt, String.toList_append]
    exact .minus (isDigits_repr (n + 1))

/-- Digits are read as far as the number fits. -/
theorem digitsUpTo_eq_ok_iff {limit n m : Nat} {chars : List Char} {beyond : DecimalFault}
    (hn : n ≤ limit) : digitsUpTo limit beyond n chars = .ok m ↔
      (∀ c ∈ chars, c.isDigit = true) ∧ Nat.ofDigitChars 10 chars n = m ∧ m ≤ limit := by
  induction chars generalizing n with
  | nil =>
    change Except.ok n = Except.ok m ↔ _
    rw [Except.ok.injEq]
    constructor
    · rintro rfl
      exact ⟨nofun, rfl, hn⟩
    · rintro ⟨-, hvalue, -⟩
      exact hvalue
  | cons c rest ih =>
    rw [digitsUpTo, List.forall_mem_cons, Nat.ofDigitChars_cons]
    split
    · next hc =>
      dsimp only
      split
      · next hle => rw [ih hle, and_assoc, and_iff_right hc]; rfl
      · next hgt =>
        refine iff_of_false nofun ?_
        rintro ⟨-, rfl, hm⟩
        exact hgt (Nat.le_trans (le_ofDigitChars rest _) hm)
    · next hc => exact iff_of_false nofun fun h => hc h.1.1

theorem digitsUpTo_zero_eq_ok_iff {limit m : Nat} {chars : List Char} {beyond : DecimalFault}
    (hne : chars ≠ []) : digitsUpTo limit beyond 0 chars = .ok m ↔ IsDigits chars m ∧ m ≤ limit := by
  rw [digitsUpTo_eq_ok_iff (Nat.zero_le limit)]
  constructor
  · rintro ⟨hdigits, hvalue, hm⟩
    exact ⟨⟨hne, hdigits, hvalue⟩, hm⟩
  · rintro ⟨⟨-, hdigits, hvalue⟩, hm⟩
    exact ⟨hdigits, hvalue, hm⟩

theorem not_isDigits_nil (n : Nat) : ¬ IsDigits [] n := fun h => h.nonempty rfl

theorem not_isDigits_sign {c : Char} {rest : List Char} {n : Nat} (hc : c = '+' ∨ c = '-') :
    ¬ IsDigits (c :: rest) n := by
  intro h
  have hdigit := h.digits c List.mem_cons_self
  rcases hc with rfl | rfl <;> exact absurd hdigit (by decide)

theorem not_isDecimal_nil (z : Int) : ¬ IsDecimal [] z := by
  intro h
  cases h with
  | bare h => exact not_isDigits_nil _ h

theorem isDecimal_plus_iff {digits : List Char} {z : Int} :
    IsDecimal ('+' :: digits) z ↔ ∃ n : Nat, IsDigits digits n ∧ z = n := by
  constructor
  · intro h
    cases h with
    | bare h => exact absurd h (not_isDigits_sign (.inl rfl))
    | plus h => exact ⟨_, h, rfl⟩
  · rintro ⟨n, h, rfl⟩
    exact .plus h

theorem isDecimal_minus_iff {digits : List Char} {z : Int} :
    IsDecimal ('-' :: digits) z ↔ ∃ n : Nat, IsDigits digits n ∧ z = -n := by
  constructor
  · intro h
    cases h with
    | bare h => exact absurd h (not_isDigits_sign (.inr rfl))
    | minus h => exact ⟨_, h, rfl⟩
  · rintro ⟨n, h, rfl⟩
    exact .minus h

theorem isDecimal_bare_iff {c : Char} {rest : List Char} {z : Int} (hplus : c ≠ '+')
    (hminus : c ≠ '-') : IsDecimal (c :: rest) z ↔ ∃ n : Nat, IsDigits (c :: rest) n ∧ z = n := by
  constructor
  · intro h
    cases h with
    | bare h => exact ⟨_, h, rfl⟩
    | plus h => exact absurd rfl hplus
    | minus h => exact absurd rfl hminus
  · rintro ⟨n, h, rfl⟩
    exact .bare h

theorem ofInt_eq_iff {z : Int} {n : Int64} (hle : -2 ^ 63 ≤ z) (hlt : z < 2 ^ 63) :
    Int64.ofInt z = n ↔ n.toInt = z := by
  constructor
  · rintro rfl
    exact Int64.toInt_ofInt_of_le hle hlt
  · rintro rfl
    exact Int64.ofInt_toInt n

/-- Digits after a sign, where the limit is that of the integers of sixty-four bits. -/
theorem map_digitsUpTo_eq_ok_iff {limit : Nat} {digits : List Char} {beyond : DecimalFault}
    (hne : digits ≠ []) {signed : Nat → Int} {n : Int64}
    (hlimit : ∀ m, m ≤ limit ↔ -2 ^ 63 ≤ signed m ∧ signed m < 2 ^ 63) :
    (digitsUpTo limit beyond 0 digits).map (fun m => Int64.ofInt (signed m)) = .ok n ↔
      ∃ m, IsDigits digits m ∧ n.toInt = signed m := by
  constructor
  · intro h
    cases hm : digitsUpTo limit beyond 0 digits with
    | error fault =>
      rw [hm] at h
      cases h
    | ok m =>
      rw [hm] at h
      obtain ⟨hdigits, hle⟩ := (digitsUpTo_zero_eq_ok_iff hne).mp hm
      obtain ⟨hlow, hhigh⟩ := (hlimit m).mp hle
      exact ⟨m, hdigits, (ofInt_eq_iff hlow hhigh).mp (Except.ok.inj h)⟩
  · rintro ⟨m, hdigits, hvalue⟩
    have hlow : -2 ^ 63 ≤ signed m := hvalue ▸ Int64.le_toInt n
    have hhigh : signed m < 2 ^ 63 := hvalue ▸ Int64.toInt_lt n
    rw [(digitsUpTo_zero_eq_ok_iff hne).mpr ⟨hdigits, (hlimit m).mpr ⟨hlow, hhigh⟩⟩]
    exact congrArg Except.ok ((ofInt_eq_iff hlow hhigh).mpr hvalue)

theorem map_natCast {ε α : Type} (f : Int → α) (e : Except ε Nat) :
    (do return ((← e : Nat) : Int) : Except ε Int).map f = e.map fun m : Nat => f m := by
  cases e <;> rfl

theorem readInt64Chars_plus (c : Char) (rest : List Char) :
    readInt64Chars ('+' :: c :: rest) = (digitsUpTo 0x7fffffffffffffff .tooLarge 0 (c :: rest)).map
      fun m : Nat => Int64.ofInt m :=
  map_natCast ..

theorem readInt64Chars_minus (c : Char) (rest : List Char) :
    readInt64Chars ('-' :: c :: rest) = (digitsUpTo 0x8000000000000000 .tooSmall 0 (c :: rest)).map
      fun m : Nat => Int64.ofInt (-m) :=
  map_natCast (fun z => Int64.ofInt (-z)) _

theorem readInt64Chars_bare {c : Char} (hplus : c ≠ '+') (hminus : c ≠ '-') (rest : List Char) :
    readInt64Chars (c :: rest) = (digitsUpTo 0x7fffffffffffffff .tooLarge 0 (c :: rest)).map
      fun m : Nat => Int64.ofInt m := by
  unfold readInt64Chars
  split
  case h_6 => exact map_natCast ..
  all_goals simp_all

theorem readInt64_eq_ok_iff {text : String} {n : Int64} :
    readInt64 text = .ok n ↔ IsDecimal text.toList n.toInt := by
  have hnonneg : ∀ m : Nat, m ≤ 0x7fffffffffffffff ↔ -2 ^ 63 ≤ (m : Int) ∧ (m : Int) < 2 ^ 63 := by
    omega
  have hnegative : ∀ m : Nat, m ≤ 0x8000000000000000 ↔ -2 ^ 63 ≤ -(m : Int) ∧ -(m : Int) < 2 ^ 63 := by
    omega
  rw [readInt64]
  cases text.toList with
  | nil => exact iff_of_false nofun (not_isDecimal_nil _)
  | cons c rest =>
    by_cases hplus : c = '+'
    · subst hplus
      rw [isDecimal_plus_iff]
      cases rest with
      | nil => exact iff_of_false nofun fun ⟨m, h, _⟩ => not_isDigits_nil m h
      | cons c rest =>
        rw [readInt64Chars_plus]
        exact map_digitsUpTo_eq_ok_iff (List.cons_ne_nil _ _) hnonneg
    by_cases hminus : c = '-'
    · subst hminus
      rw [isDecimal_minus_iff]
      cases rest with
      | nil => exact iff_of_false nofun fun ⟨m, h, _⟩ => not_isDigits_nil m h
      | cons c rest =>
        rw [readInt64Chars_minus]
        exact map_digitsUpTo_eq_ok_iff (List.cons_ne_nil _ _) hnegative
    · rw [readInt64Chars_bare hplus hminus, isDecimal_bare_iff hplus hminus]
      exact map_digitsUpTo_eq_ok_iff (List.cons_ne_nil _ _) hnonneg

theorem readInt64_writeInt64 (n : Int64) : readInt64 (writeInt64 n) = .ok n :=
  readInt64_eq_ok_iff.mpr (isDecimal_writeInt n.toInt)

/-- Only a plus sign may stand before a natural number. -/
theorem readNatUpTo_eq_some_iff {limit n : Nat} {text : String} : readNatUpTo limit text = some n ↔
    ∃ sign digits, text.toList = sign ++ digits ∧ (sign = [] ∨ sign = ['+']) ∧ IsDigits digits n ∧
      n ≤ limit := by
  constructor
  · intro h
    unfold readNatUpTo at h
    split at h
    · cases h
    · cases h
    · next digits hne htext =>
      obtain ⟨hdigits, hle⟩ := (digitsUpTo_zero_eq_ok_iff hne).mp (Except.toOption_eq_some_iff.mp h)
      exact ⟨['+'], digits, htext, .inr rfl, hdigits, hle⟩
    · next digits hne _ _ =>
      obtain ⟨hdigits, hle⟩ := (digitsUpTo_zero_eq_ok_iff hne).mp (Except.toOption_eq_some_iff.mp h)
      exact ⟨[], _, rfl, .inl rfl, hdigits, hle⟩
  · rintro ⟨sign, digits, htext, hsign, hdigits, hle⟩
    have hread : digitsUpTo limit .tooLarge 0 digits = .ok n :=
      (digitsUpTo_zero_eq_ok_iff hdigits.nonempty).mpr ⟨hdigits, hle⟩
    obtain ⟨c, rest, rfl⟩ := List.exists_cons_of_ne_nil hdigits.nonempty
    have hc : c.isDigit = true := hdigits.digits c List.mem_cons_self
    unfold readNatUpTo
    rw [htext]
    rcases hsign with rfl | rfl
    · split
      case h_4 => exact Except.toOption_eq_some_iff.mpr hread
      all_goals simp_all
    · exact Except.toOption_eq_some_iff.mpr hread

theorem digitValue_pos {c : Char} (hc : c.isDigit = true) (hne : c ≠ '0') : 0 < digitValue c := by
  have hle : 48 ≤ c.toNat := (Char.isDigit_iff_toNat.mp hc).1
  have hne : c.toNat ≠ '0'.toNat := mt Char.toNat_inj.mp hne
  change 0 < c.toNat - 48
  change c.toNat ≠ 48 at hne
  omega

theorem digitValue_lt {c : Char} (hc : c.isDigit = true) : digitValue c < 10 := by
  have hle : c.toNat ≤ 57 := (Char.isDigit_iff_toNat.mp hc).2
  change c.toNat - 48 < 10
  omega

theorem digitValue_inj {c d : Char} (hc : c.isDigit = true) (hd : d.isDigit = true)
    (h : digitValue c = digitValue d) : c = d := by
  have hc : 48 ≤ c.toNat := (Char.isDigit_iff_toNat.mp hc).1
  have hd : 48 ≤ d.toNat := (Char.isDigit_iff_toNat.mp hd).1
  change c.toNat - 48 = d.toNat - 48 at h
  exact Char.toNat_inj.mp (by omega)

theorem ofDigitChars_zeros {zeros : List Char} (h : ∀ c ∈ zeros, c = '0') (digits : List Char) :
    Nat.ofDigitChars 10 (zeros ++ digits) 0 = Nat.ofDigitChars 10 digits 0 := by
  induction zeros with
  | nil => rfl
  | cons c zeros ih =>
    obtain ⟨rfl, hzeros⟩ := List.forall_mem_cons.mp h
    rw [List.cons_append, Nat.ofDigitChars_cons]
    exact ih hzeros

/-- A number of one digit is written with that digit after zeros. -/
theorem isDigits_iff_zeros {chars : List Char} {digit : Char} (hdigit : digit.isDigit = true)
    (hne : digit ≠ '0') : IsDigits chars (digitValue digit) ↔
      ∃ zeros, chars = zeros ++ [digit] ∧ ∀ c ∈ zeros, c = '0' := by
  constructor
  · rintro ⟨hnonempty, hdigits, hvalue⟩
    induction chars with
    | nil => exact absurd rfl hnonempty
    | cons c rest ih =>
      obtain ⟨hc, htail⟩ := List.forall_mem_cons.mp hdigits
      by_cases hzero : c = '0'
      · subst hzero
        have hrest : rest ≠ [] := by
          rintro rfl
          exact Nat.ne_of_lt (digitValue_pos hdigit hne) hvalue
        obtain ⟨zeros, rfl, hzeros⟩ := ih hrest htail hvalue
        exact ⟨'0' :: zeros, rfl, List.forall_mem_cons.mpr ⟨rfl, hzeros⟩⟩
      · have hpos := digitValue_pos hc hzero
        rw [Nat.ofDigitChars_cons] at hvalue
        cases rest with
        | nil =>
          have hvalue : 10 * 0 + digitValue c = digitValue digit := hvalue
          obtain rfl := digitValue_inj hc hdigit (by omega)
          exact ⟨[], rfl, nofun⟩
        | cons d rest =>
          -- Another digit after this one makes the number ten at least.
          have hle := le_ofDigitChars rest (10 * (10 * 0 + digitValue c) + digitValue d)
          have hvalue : Nat.ofDigitChars 10 rest (10 * (10 * 0 + digitValue c) + digitValue d) =
            digitValue digit := hvalue
          have hlt := digitValue_lt hdigit
          omega
  · rintro ⟨zeros, rfl, hzeros⟩
    refine ⟨by simp, ?_, ?_⟩
    · intro c hc
      rcases List.mem_append.mp hc with hc | hc
      · rw [hzeros c hc]
        decide
      · rwa [List.mem_singleton.mp hc]
    · rw [ofDigitChars_zeros hzeros, Nat.ofDigitChars_cons]
      simp [digitValue]

end SessionGate.Text
