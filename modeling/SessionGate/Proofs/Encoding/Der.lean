import Mathlib.Algebra.Group.Nat.Defs
import Mathlib.Tactic.SplitIfs
import SessionGate.Encoding.Der

/-!
Numbers as big-endian bytes: the value of bytes tells apart those of one length, and the fewest bytes
of a number have its value. Values read back from what they are written as, while four bytes hold the
length. Main statement: `read?_write`.
-/

namespace SessionGate.Der

theorem foldl_bytes (bytes : List UInt8) (n : Nat) :
    bytes.foldl (fun n b => 256 * n + b.toNat) n = n * 256 ^ bytes.length + natOfBytes bytes := by
  induction bytes generalizing n with
  | nil => simp [natOfBytes]
  | cons b bytes ih =>
    rw [natOfBytes, List.foldl_cons, List.foldl_cons, ih, ih (256 * 0 + b.toNat), List.length_cons,
      Nat.pow_succ, Nat.add_mul]
    simp only [Nat.mul_zero, Nat.zero_add, Nat.add_assoc]
    rw [Nat.mul_assoc, Nat.mul_left_comm, Nat.mul_comm 256]

theorem natOfBytes_cons (b : UInt8) (bytes : List UInt8) :
    natOfBytes (b :: bytes) = b.toNat * 256 ^ bytes.length + natOfBytes bytes := by
  rw [natOfBytes, List.foldl_cons, foldl_bytes, Nat.mul_zero, Nat.zero_add]

theorem natOfBytes_lt (bytes : List UInt8) : natOfBytes bytes < 256 ^ bytes.length := by
  induction bytes with
  | nil => decide
  | cons b bytes ih =>
    have hb : b.toNat + 1 ≤ 256 := b.toNat_lt
    calc natOfBytes (b :: bytes)
        = b.toNat * 256 ^ bytes.length + natOfBytes bytes := natOfBytes_cons b bytes
      _ < b.toNat * 256 ^ bytes.length + 256 ^ bytes.length := Nat.add_lt_add_left ih _
      _ = (b.toNat + 1) * 256 ^ bytes.length := (Nat.succ_mul _ _).symm
      _ ≤ 256 * 256 ^ bytes.length := Nat.mul_le_mul_right _ hb
      _ = 256 ^ (b :: bytes).length := by rw [List.length_cons, Nat.pow_succ, Nat.mul_comm]

theorem natOfBytes_inj {xs ys : List UInt8} (hlength : xs.length = ys.length)
    (h : natOfBytes xs = natOfBytes ys) : xs = ys := by
  induction xs generalizing ys with
  | nil => exact (List.length_eq_zero_iff.mp hlength.symm).symm
  | cons x xs ih =>
    cases ys with
    | nil => cases hlength
    | cons y ys =>
      have hlength : xs.length = ys.length := Nat.succ.inj hlength
      have hx := natOfBytes_lt xs
      have hy := natOfBytes_lt ys
      rw [natOfBytes_cons, natOfBytes_cons, hlength] at h
      rw [hlength] at hx
      have hpos : 0 < 256 ^ ys.length := Nat.pow_pos (by decide)
      have hhead : x.toNat = y.toNat := by
        have hdiv := congrArg (· / 256 ^ ys.length) h
        simpa only [Nat.mul_comm _ (256 ^ ys.length), Nat.mul_add_div hpos, Nat.div_eq_of_lt hx,
          Nat.div_eq_of_lt hy, Nat.add_zero] using hdiv
      rw [hhead] at h
      rw [UInt8.toNat_inj.mp hhead, ih hlength (Nat.add_left_cancel h)]

theorem natOfBytes_prependBytes (n : Nat) (rest : List UInt8) :
    natOfBytes (prependBytes n rest) = n * 256 ^ rest.length + natOfBytes rest := by
  fun_induction prependBytes n rest with
  | case1 rest => simp
  | case2 n rest hn ih =>
    rw [ih, natOfBytes_cons, List.length_cons, UInt8.toNat_ofNat', Nat.pow_succ, ← Nat.add_assoc,
      Nat.mul_comm (256 ^ rest.length), ← Nat.mul_assoc, ← Nat.add_mul]
    congr 2
    omega

theorem natOfBytes_bytesOfNat (n : Nat) : natOfBytes (bytesOfNat n) = n := by
  rw [bytesOfNat, natOfBytes_prependBytes]
  simp [natOfBytes]

theorem length_prependBytes_le {n size : Nat} (h : n < 256 ^ size) (rest : List UInt8) :
    (prependBytes n rest).length ≤ size + rest.length := by
  fun_induction prependBytes n rest generalizing size with
  | case1 rest => exact Nat.le_add_left _ _
  | case2 n rest hn ih =>
    cases size with
    | zero => exact absurd (Nat.lt_one_iff.mp h) hn
    | succ size =>
      have hlt : n / 256 < 256 ^ size := by
        rw [Nat.pow_succ] at h
        exact Nat.div_lt_of_lt_mul (Nat.mul_comm _ 256 ▸ h)
      have hle := ih hlt
      rw [List.length_cons] at hle
      omega

theorem length_bytesOfNat_le {n size : Nat} (h : n < 256 ^ size) : (bytesOfNat n).length ≤ size :=
  length_prependBytes_le h []

theorem bytesOfNat_ne_nil {n : Nat} (h : n ≠ 0) : bytesOfNat n ≠ [] := by
  intro hnil
  have hvalue := natOfBytes_bytesOfNat n
  rw [hnil] at hvalue
  exact h hvalue.symm

/-- The longest content that has a length to read. -/
def longest : Nat := 256 ^ 4

theorem readLength?_writeLength {n : Nat} (h : n < longest) (rest : List UInt8) :
    readLength? (writeLength n ++ rest) = some (n, rest) := by
  rw [writeLength]
  split
  · next hshort =>
    have hbyte : (UInt8.ofNat n).toNat = n := by
      rw [UInt8.toNat_ofNat']
      omega
    have hlt : UInt8.ofNat n < 128 := by
      rw [UInt8.lt_iff_toNat_lt, hbyte]
      exact hshort
    rw [List.singleton_append, readLength?, if_pos hlt, hbyte]
  · next hlong =>
    have hcount := length_bytesOfNat_le h
    have hpositive : 0 < (bytesOfNat n).length :=
      List.length_pos_iff.mpr (bytesOfNat_ne_nil (by omega))
    have hbyte : (UInt8.ofNat (128 + (bytesOfNat n).length)).toNat = 128 + (bytesOfNat n).length := by
      rw [UInt8.toNat_ofNat']
      omega
    have hlt : ¬ UInt8.ofNat (128 + (bytesOfNat n).length) < 128 := by
      rw [UInt8.lt_iff_toNat_lt, hbyte]
      exact Nat.not_lt.mpr (Nat.le_add_right 128 _)
    have hwrite : writeLength n =
        UInt8.ofNat (128 + (bytesOfNat n).length) :: bytesOfNat n := if_neg hlong
    dsimp only
    rw [List.cons_append, readLength?, if_neg hlt]
    simp only [hbyte, Nat.add_sub_cancel_left, List.take_left, List.drop_left, natOfBytes_bytesOfNat,
      hwrite]
    rw [if_pos ⟨hpositive, hcount, trivial, trivial⟩]

theorem readTagged?_writeTagged (tag : UInt8) {content : List UInt8} (h : content.length < longest)
    (rest : List UInt8) :
    readTagged? (writeTagged tag content ++ rest) = some (tag, content, rest) := by
  rw [writeTagged, List.cons_append, List.cons_append, List.append_assoc, readTagged?,
    readLength?_writeLength h]
  simp

theorem natOfBytes_integerContent (n : Nat) : natOfBytes (integerContent n) = n := by
  have hvalue := natOfBytes_bytesOfNat n
  unfold integerContent
  split
  · next hnil =>
    rw [hnil] at hvalue
    exact hvalue
  · next b rest hbytes =>
    rw [hbytes] at hvalue
    split
    · exact hvalue
    · rw [natOfBytes_cons, UInt8.toNat_zero, Nat.zero_mul, Nat.zero_add, hvalue]

theorem readInteger?_integerContent (n : Nat) : readInteger? (integerContent n) = some n := by
  rw [readInteger?, natOfBytes_integerContent]
  exact if_pos rfl

mutual

/-- No value is written under the tag of another kind. -/
def Value.Proper : Value → Prop
  | .sequence items => AllProper items
  | .tagged tag _ => tag ∉ [integerTag, bitsTag, octetsTag, nullTag, objectIdTag, sequenceTag]
  | .integer _ | .bits _ | .octets _ | .null | .objectId _ => True

def AllProper : List Value → Prop
  | [] => True
  | v :: rest => v.Proper ∧ AllProper rest

end

def Value.tag : Value → UInt8
  | .integer _ => integerTag
  | .bits _ => bitsTag
  | .octets _ => octetsTag
  | .null => nullTag
  | .objectId _ => objectIdTag
  | .sequence _ => sequenceTag
  | .tagged tag _ => tag

def Value.content : Value → List UInt8
  | .integer n => integerContent n
  | .bits bytes => 0 :: bytes
  | .octets bytes => bytes
  | .null => []
  | .objectId bytes => bytes
  | .sequence items => writeAll items
  | .tagged _ content => content

theorem write_eq (v : Value) : v.write = writeTagged v.tag v.content := by
  cases v <;> rfl

theorem length_content_lt (v : Value) : v.content.length < v.write.length := by
  rw [write_eq, writeTagged, List.length_append, List.length_cons]
  omega

/-- The value under a tag. -/
def valueOf? (fuel : Nat) (tag : UInt8) (content : List UInt8) : Option Value :=
  if tag = integerTag then (readInteger? content).map .integer
  else if tag = bitsTag then
    match content with
    | 0 :: bytes => some (.bits bytes)
    | _ => none
  else if tag = octetsTag then some (.octets content)
  else if tag = nullTag then if content = [] then some .null else none
  else if tag = objectIdTag then some (.objectId content)
  else if tag = sequenceTag then (readAll? fuel content).map .sequence
  else some (.tagged tag content)

theorem readAll?_writeTagged (fuel : Nat) (tag : UInt8) {content : List UInt8}
    (h : content.length < longest) (rest : List UInt8) :
    readAll? (fuel + 1) (writeTagged tag content ++ rest) =
      (valueOf? fuel tag content).bind fun value => (readAll? fuel rest).map (value :: ·) := by
  have htagged := readTagged?_writeTagged tag h rest
  obtain ⟨b, more, hcons⟩ : ∃ b more, writeTagged tag content ++ rest = b :: more := ⟨_, _, rfl⟩
  rw [hcons] at htagged ⊢
  conv => lhs; unfold readAll?
  unfold valueOf?
  simp only [htagged, Option.bind_eq_bind, Option.bind_some]
  split_ifs
  · cases readInteger? content <;> cases readAll? fuel rest <;> rfl
  · split
    · cases readAll? fuel rest <;> rfl
    · simp
  · cases readAll? fuel rest <;> rfl
  · cases readAll? fuel rest <;> rfl
  · rfl
  · cases readAll? fuel rest <;> rfl
  · cases readAll? fuel content <;> cases readAll? fuel rest <;> rfl
  · cases readAll? fuel rest <;> rfl

theorem valueOf?_content {fuel : Nat} {v : Value} (hproper : v.Proper)
    (hitems : ∀ items, v = .sequence items → readAll? fuel (writeAll items) = some items) :
    valueOf? fuel v.tag v.content = some v := by
  cases v with
  | integer n =>
    have hinteger : valueOf? fuel integerTag (integerContent n) =
        (readInteger? (integerContent n)).map .integer := rfl
    rw [Value.tag, Value.content, hinteger, readInteger?_integerContent]
    rfl
  | bits bytes => rfl
  | octets bytes => rfl
  | null => rfl
  | objectId bytes => rfl
  | sequence items =>
    have hsequence : valueOf? fuel sequenceTag (writeAll items) =
        (readAll? fuel (writeAll items)).map .sequence := rfl
    rw [Value.tag, Value.content, hsequence, hitems items rfl]
    rfl
  | tagged tag content =>
    rw [Value.Proper] at hproper
    simp only [List.mem_cons, List.not_mem_nil, or_false, not_or] at hproper
    obtain ⟨hinteger, hbits, hoctets, hnull, hobject, hsequence⟩ := hproper
    unfold valueOf?
    rw [Value.tag, Value.content, if_neg hinteger, if_neg hbits, if_neg hoctets, if_neg hnull,
      if_neg hobject, if_neg hsequence]

/-- The fuel goes down with every value and with every sequence that is entered, and so does the length
that is left. -/
theorem readAll?_writeAll {fuel : Nat} {items : List Value} (hproper : AllProper items)
    (hfuel : (writeAll items).length ≤ fuel) (hlength : (writeAll items).length < longest) :
    readAll? fuel (writeAll items) = some items := by
  induction fuel generalizing items with
  | zero =>
    cases items with
    | nil => rfl
    | cons v rest =>
      have hcontent := length_content_lt v
      rw [writeAll, List.length_append] at hfuel
      omega
  | succ fuel ih =>
    cases items with
    | nil => rfl
    | cons v rest =>
      have hcontent := length_content_lt v
      rw [writeAll, List.length_append] at hfuel hlength
      rw [writeAll, write_eq, readAll?_writeTagged fuel v.tag (by omega), valueOf?_content hproper.1,
        Option.bind_some, ih hproper.2 (by omega) (by omega)]
      · rfl
      · rintro items rfl
        rw [Value.content] at hcontent
        exact ih hproper.1 (by omega) (by omega)

theorem read?_write {v : Value} (hproper : v.Proper) (hlength : v.write.length < longest) :
    read? v.write = some v := by
  have hall : writeAll [v] = v.write := List.append_nil _
  have hread : readAll? (writeAll [v]).length (writeAll [v]) = some [v] :=
    readAll?_writeAll ⟨hproper, trivial⟩ (Nat.le_refl _) (hall ▸ hlength)
  rw [hall] at hread
  rw [read?, hread]

end SessionGate.Der
