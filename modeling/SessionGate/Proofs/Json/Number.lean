import SessionGate.Proofs.Json.Literal
import SessionGate.Proofs.Text.Decimal

/-!
The grammar of numbers: a minus or none, a whole part without zeros in front, then a fraction and a
power of ten, each of which may be left out. A number is read as what it spells wherever nothing
follows that could belong to it.
-/

namespace SessionGate.Json

open Text (IsDigits IsDecimal)

structure IsWhole (chars : List Char) (n : Nat) : Prop where
  digits : IsDigits chars n
  leading : chars.head? = some '0' → chars = ['0']

inductive IsFraction : List Char → List Char → Prop
  | absent : IsFraction [] []
  | point {digits n} (h : IsDigits digits n) : IsFraction ('.' :: digits) digits

inductive IsPower : List Char → Option Int → Prop
  | absent : IsPower [] none
  | power {e chars z} (he : e = 'e' ∨ e = 'E') (h : IsDecimal chars z) :
    IsPower (e :: chars) (some z)

def sign (negative : Bool) : List Char := if negative then ['-'] else []

/-- Digits alone are an integer, unless they are the negative zero. -/
inductive IsNumber : List Char → Json → Prop
  | integer {negative : Bool} {whole n} (hwhole : IsWhole whole n) (hzero : ¬(negative ∧ n = 0)) :
    IsNumber (sign negative ++ whole) (.integer (if negative then -n else n))
  | decimal {negative : Bool} {whole n fraction digits power exponent m} (hwhole : IsWhole whole n)
    (hfraction : IsFraction fraction digits) (hpower : IsPower power exponent)
    (hpart : digits ≠ [] ∨ exponent ≠ none ∨ negative ∧ n = 0)
    (hdigits : IsDigits (whole ++ digits) m) :
    IsNumber (sign negative ++ (whole ++ (fraction ++ power)))
      (.decimal negative m (exponent.getD 0 - digits.length))

def DigitsEnd (rest : List UInt8) : Prop := ∀ b ∈ rest.head?, isDigitByte b = false

/-- What cannot go on with a number before it. -/
def Apart (rest : List UInt8) : Prop :=
  ∀ b ∈ rest.head?, isDigitByte b = false ∧ b ≠ byte '.' ∧ b ≠ byte 'e' ∧ b ≠ byte 'E'

theorem Apart.digitsEnd {rest : List UInt8} (h : Apart rest) : DigitsEnd rest :=
  fun b hb => (h b hb).1

theorem toNat_of_isDigit {c : Char} (h : c.isDigit) : 48 ≤ c.toNat ∧ c.toNat ≤ 57 :=
  Char.isDigit_iff_toNat.mp h

theorem byte_toNat_of_isDigit {c : Char} (h : c.isDigit) : (byte c).toNat = c.toNat := by
  have hle := toNat_of_isDigit h
  rw [byte, UInt8.toNat_ofNat']
  omega

theorem isDigitByte_byte {c : Char} (h : c.isDigit) : isDigitByte (byte c) = true := by
  have hbyte := byte_toNat_of_isDigit h
  simp only [isDigitByte, Bool.and_eq_true, decide_eq_true_eq, UInt8.le_iff_toNat_le, hbyte]
  exact toNat_of_isDigit h

theorem bytes_of_isDigit {chars : List Char} (h : ∀ c ∈ chars, c.isDigit) :
    bytes chars = chars.map byte := by
  induction chars with
  | nil => rfl
  | cons c chars ih =>
    have hc := toNat_of_isDigit (h c List.mem_cons_self)
    rw [bytes_cons_of_lt (by omega), ih fun c hc => h c (List.mem_cons_of_mem _ hc)]
    rfl

theorem foldl_digits {chars : List Char} (h : ∀ c ∈ chars, c.isDigit) (n : Nat) :
    (chars.map byte).foldl (fun n b => 10 * n + (b.toNat - 0x30)) n = Nat.ofDigitChars 10 chars n := by
  induction chars generalizing n with
  | nil => rfl
  | cons c chars ih =>
    rw [List.map_cons, List.foldl_cons, Nat.ofDigitChars_cons,
      ih fun c hc => h c (List.mem_cons_of_mem _ hc), byte_toNat_of_isDigit (h c List.mem_cons_self)]
    rfl

theorem digitsEnd_cons {c : Char} (hlt : c.toNat < 128) (hc : isDigitByte (byte c) = false)
    (chars : List Char) (rest : List UInt8) : DigitsEnd (bytes (c :: chars) ++ rest) := by
  rintro b hb
  rw [bytes_cons_of_lt hlt] at hb
  obtain rfl := Option.some.inj hb
  exact hc

section IsDigits

variable {chars : List Char} {n : Nat} {rest : List UInt8}

theorem isDigitByte_of_mem_bytes (h : ∀ c ∈ chars, c.isDigit) {b : UInt8}
    (hb : b ∈ bytes chars) : isDigitByte b := by
  rw [bytes_of_isDigit h] at hb
  obtain ⟨c, hc, rfl⟩ := List.mem_map.mp hb
  exact isDigitByte_byte (h c hc)

theorem natOfDigits_bytes (h : IsDigits chars n) : natOfDigits (bytes chars) = n := by
  rw [bytes_of_isDigit h.digits, natOfDigits, foldl_digits h.digits, h.value]

theorem takeWhile_bytes (h : IsDigits chars n) (hrest : DigitsEnd rest) :
    (bytes chars ++ rest).takeWhile isDigitByte = bytes chars := by
  have hend : rest.takeWhile isDigitByte = [] := by
    cases rest with
    | nil => rfl
    | cons b rest => rw [List.takeWhile_cons, hrest b rfl]; rfl
  rw [List.takeWhile_append_of_pos fun _ hb => isDigitByte_of_mem_bytes h.digits hb, hend,
    List.append_nil]

theorem exists_byte_of_isDigits (h : IsDigits chars n) :
    ∃ b more, bytes chars = b :: more ∧ isDigitByte b := by
  obtain ⟨c, more, rfl⟩ := List.exists_cons_of_ne_nil h.nonempty
  rw [bytes_of_isDigit h.digits]
  exact ⟨_, _, rfl, isDigitByte_byte (h.digits c List.mem_cons_self)⟩

theorem bytes_ne_nil_of_isDigits (h : IsDigits chars n) : bytes chars ≠ [] := by
  obtain ⟨b, more, hbytes, -⟩ := exists_byte_of_isDigits h
  rw [hbytes]
  exact List.cons_ne_nil b more

end IsDigits

theorem readFraction?_of_ne {rest : List UInt8} (h : rest.head? ≠ some 0x2e) :
    readFraction? rest = some ([], rest) := by
  unfold readFraction?
  split
  · exact absurd rfl h
  · rfl

section IsFraction

variable {fraction digits : List Char} {rest : List UInt8}

theorem IsFraction.read (h : IsFraction fraction digits) (hrest : DigitsEnd rest)
    (hpoint : rest.head? ≠ some 0x2e) :
    readFraction? (bytes fraction ++ rest) = some (bytes digits, rest) := by
  cases h with
  | absent => exact readFraction?_of_ne hpoint
  | point h =>
    rw [bytes_cons_of_lt (by decide), List.cons_append]
    change readFraction? (0x2e :: _) = _
    rw [readFraction?, takeWhile_bytes h hrest, if_neg (bytes_ne_nil_of_isDigits h), List.drop_left]

theorem IsFraction.digitsEnd (h : IsFraction fraction digits) (hrest : DigitsEnd rest) :
    DigitsEnd (bytes fraction ++ rest) := by
  cases h with
  | absent => exact hrest
  | point => exact digitsEnd_cons (by decide) (by decide) _ _

theorem IsFraction.isDigit (h : IsFraction fraction digits) : ∀ c ∈ digits, c.isDigit := by
  cases h with
  | absent => exact nofun
  | point h => exact h.digits

end IsFraction

section IsPower

variable {power : List Char} {exponent : Option Int} {rest : List UInt8}

/-- A sign, if there is one, and the digits after it. -/
theorem exists_readSign {chars : List Char} {z : Int} (h : IsDecimal chars z)
    (rest : List UInt8) : ∃ negative digits n, IsDigits digits n ∧
      readSign (bytes chars ++ rest) = (negative, bytes digits ++ rest) ∧
      (if negative then -(n : Int) else n) = z := by
  cases h with
  | bare h =>
    refine ⟨false, _, _, h, ?_, rfl⟩
    obtain ⟨b, more, hbytes, hb⟩ := exists_byte_of_isDigits h
    rw [hbytes, List.cons_append]
    unfold readSign
    split
    · next heq =>
      obtain ⟨rfl, -⟩ := List.cons.inj heq
      cases hb
    · next heq =>
      obtain ⟨rfl, -⟩ := List.cons.inj heq
      cases hb
    · rfl
  | plus h =>
    refine ⟨false, _, _, h, ?_, rfl⟩
    rw [bytes_cons_of_lt (by decide)]
    rfl
  | minus h =>
    refine ⟨true, _, _, h, ?_, rfl⟩
    rw [bytes_cons_of_lt (by decide)]
    rfl

theorem readExponent?_apart (h : Apart rest) : readExponent? rest = some (none, rest) := by
  cases rest with
  | nil => rfl
  | cons b rest =>
    obtain ⟨-, -, he, hE⟩ := h b rfl
    exact if_neg (not_or.mpr ⟨he, hE⟩)

theorem IsPower.read (h : IsPower power exponent) (hrest : Apart rest) :
    readExponent? (bytes power ++ rest) = some (exponent, rest) := by
  cases h with
  | absent => exact readExponent?_apart hrest
  | @power e chars z he h =>
    have hlt : e.toNat < 128 := by
      rcases he with rfl | rfl <;> decide
    have hbyte : byte e = byte 'e' ∨ byte e = byte 'E' := he.imp (congrArg byte) (congrArg byte)
    obtain ⟨negative, digits, n, hdigits, hsign, rfl⟩ := exists_readSign h rest
    rw [bytes_cons_of_lt hlt, List.cons_append, readExponent?]
    dsimp only
    rw [if_pos hbyte, hsign]
    dsimp only
    rw [takeWhile_bytes hdigits hrest.digitsEnd, if_neg (bytes_ne_nil_of_isDigits hdigits),
      List.drop_left, natOfDigits_bytes hdigits]

theorem IsPower.apart (h : IsPower power exponent) (hrest : Apart rest) :
    DigitsEnd (bytes power ++ rest) ∧ (bytes power ++ rest).head? ≠ some 0x2e := by
  cases h with
  | absent => exact ⟨hrest.digitsEnd, fun hb => (hrest _ hb).2.1 rfl⟩
  | power he =>
    rcases he with rfl | rfl <;>
      exact ⟨digitsEnd_cons (by decide) (by decide) _ _, fun hb => by cases hb⟩

end IsPower

/-- A number after its sign, part by part. -/
theorem readNumber?_parts {negative : Bool} {whole fraction digits power : List Char} {n m : Nat}
    {exponent : Option Int} (hwhole : IsWhole whole n) (hfraction : IsFraction fraction digits)
    (hpower : IsPower power exponent) (hdigits : IsDigits (whole ++ digits) m) {rest : List UInt8}
    (hrest : Apart rest) :
    readNumber? negative (bytes (whole ++ (fraction ++ power)) ++ rest) =
      some (if digits = [] ∧ exponent = none ∧ ¬(negative ∧ n = 0) then
          .integer (if negative then -n else n)
        else .decimal negative m (exponent.getD 0 - digits.length), rest) := by
  obtain ⟨hend, hpoint⟩ := hpower.apart hrest
  have hbytes : bytes digits = [] ↔ digits = [] := by
    rw [bytes_of_isDigit hfraction.isDigit, List.map_eq_nil_iff]
  have hlength : (bytes digits).length = digits.length := by
    rw [bytes_of_isDigit hfraction.isDigit, List.length_map]
  have hleading : ¬(bytes whole = [] ∨
      (bytes whole).head? = some 0x30 ∧ 1 < (bytes whole).length) := by
    rw [not_or]
    refine ⟨bytes_ne_nil_of_isDigits hwhole.digits, ?_⟩
    rintro ⟨hhead, hlong⟩
    obtain ⟨c, more, rfl⟩ := List.exists_cons_of_ne_nil hwhole.digits.nonempty
    have hc := hwhole.digits.digits c List.mem_cons_self
    rw [bytes_of_isDigit hwhole.digits.digits] at hhead hlong
    have hzero : c = '0' := by
      have hnat := byte_toNat_of_isDigit hc
      rw [Option.some.inj hhead] at hnat
      exact Char.toNat_inj.mp hnat.symm
    rw [hwhole.leading (congrArg some hzero)] at hlong
    exact absurd hlong (by decide)
  rw [bytes_append, bytes_append, List.append_assoc, List.append_assoc, readNumber?,
    takeWhile_bytes hwhole.digits (hfraction.digitsEnd hend)]
  dsimp only
  rw [if_neg hleading, List.drop_left]
  simp only [Option.bind_eq_bind, hfraction.read hend hpoint, Option.bind_some, hpower.read hrest,
    hbytes, hlength, natOfDigits_bytes hwhole.digits, ← bytes_append, natOfDigits_bytes hdigits]
  split <;> rfl

/-- A number is read after its sign, and there it begins with a digit. -/
theorem IsNumber.read {chars : List Char} {v : Json} (h : IsNumber chars v) :
    ∃ negative unsigned, chars = sign negative ++ unsigned ∧
      (∃ b more, bytes unsigned = b :: more ∧ isDigitByte b) ∧
      ∀ rest, Apart rest → readNumber? negative (bytes unsigned ++ rest) = some (v, rest) := by
  cases h with
  | @integer negative whole n hwhole hzero =>
    refine ⟨negative, whole, rfl, exists_byte_of_isDigits hwhole.digits, fun rest hrest => ?_⟩
    have hdigits : IsDigits (whole ++ []) n := (List.append_nil whole).symm ▸ hwhole.digits
    have hread : readNumber? negative (bytes (whole ++ ([] ++ [])) ++ rest) = _ :=
      readNumber?_parts hwhole .absent .absent hdigits hrest
    rwa [if_pos ⟨rfl, rfl, hzero⟩, List.append_nil, List.append_nil] at hread
  | @decimal negative whole n fraction digits power exponent m hwhole hfraction hpower hpart hm =>
    refine ⟨negative, _, rfl, ?_, fun rest hrest => ?_⟩
    · obtain ⟨b, more, hbytes, hb⟩ := exists_byte_of_isDigits hwhole.digits
      exact ⟨b, more ++ bytes (fraction ++ power), by rw [bytes_append, hbytes]; rfl, hb⟩
    · rw [readNumber?_parts hwhole hfraction hpower hm hrest, if_neg]
      rintro ⟨hdigits, hexponent, hzero⟩
      rcases hpart with hpart | hpart | hpart
      · exact hpart hdigits
      · exact hpart hexponent
      · exact hzero hpart

theorem digitChar_ne_zero : ∀ n < 10, 0 < n → n.digitChar ≠ '0' := by
  decide

/-- A number does not begin with a zero, unless it is zero. -/
theorem head?_toDigits {n : Nat} (h : 0 < n) : (Nat.toDigits 10 n).head? ≠ some '0' := by
  induction n using Nat.strongRecOn with
  | ind n ih =>
    by_cases hlt : n < 10
    · rw [Nat.toDigits_of_lt_base hlt]
      intro hzero
      exact digitChar_ne_zero n hlt h (Option.some.inj hzero)
    · rw [Nat.toDigits_of_base_le (by decide) (by omega)]
      have hrest := ih (n / 10) (by omega) (by omega)
      cases hdigits : Nat.toDigits 10 (n / 10) with
      | nil => exact absurd hdigits Nat.toDigits_ne_nil
      | cons c rest =>
        rw [hdigits] at hrest
        exact hrest

theorem isWhole_repr (n : Nat) : IsWhole (Nat.repr n).toList n where
  digits := Text.isDigits_repr n
  leading h := by
    rcases Nat.eq_zero_or_pos n with rfl | hpos
    · rfl
    · rw [Nat.toList_repr] at h
      exact absurd h (head?_toDigits hpos)

end SessionGate.Json
