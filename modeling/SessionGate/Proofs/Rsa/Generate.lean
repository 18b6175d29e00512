import SessionGate.Proofs.Rsa.Armour
import SessionGate.Rsa.Generate

/-!
What a key that was drawn is like: its factors are of half its length, and its secret exponent is below
the modulus. That the factors are primes is what the tests they passed make probable, and is not more
than that. Main statement: `fresh_of_generate?`.
-/

namespace SessionGate.Rsa

/-- The search goes up from its start, two at a time. -/
theorem findPrime?_bounds {bases : List Nat} {fuel start n : Nat}
    (h : findPrime? bases fuel start = some n) : start ≤ n ∧ n < start + 2 * fuel := by
  induction fuel generalizing start with
  | zero => cases h
  | succ fuel ih =>
    rw [findPrime?] at h
    split at h
    · obtain rfl := Option.some.inj h
      omega
    · have hbounds := ih h
      omega

/-- The two highest bits of a half are set. -/
theorem start_bounds (half n : Nat) (hhalf : 2 ≤ half) :
    3 * 2 ^ (half - 2) ≤ n % (1 <<< (half - 2)) + 3 <<< (half - 2) ||| 1 ∧
      n % (1 <<< (half - 2)) + 3 <<< (half - 2) ||| 1 < 2 ^ half := by
  obtain ⟨low, rfl⟩ : ∃ low, half = low + 2 := ⟨half - 2, by omega⟩
  rw [Nat.add_sub_cancel, Nat.shiftLeft_eq, Nat.shiftLeft_eq, Nat.one_mul]
  have hpositive : 0 < 2 ^ low := Nat.two_pow_pos low
  have hlow := Nat.mod_lt n hpositive
  have hpow : 2 ^ (low + 2) = 4 * 2 ^ low := by
    rw [Nat.pow_add, Nat.mul_comm]
  constructor
  · exact Nat.le_trans (Nat.le_add_left _ _) Nat.left_le_or
  · refine Nat.or_lt_two_pow ?_ ?_
    · omega
    · omega

theorem drawPrime?_bounds {seed : List UInt8} {label p : Nat} (h : drawPrime? seed label = some p) :
    2 ^ (newBits / 2 - 1) ≤ p ∧ p < 2 ^ (newBits / 2 + 1) := by
  unfold drawPrime? at h
  have hlong : 16 ≤ newBits / 2 := by decide
  dsimp only at h
  generalize newBits / 2 = half at h hlong ⊢
  obtain ⟨hlow, hhigh⟩ := findPrime?_bounds h
  obtain ⟨hstart, hend⟩ := start_bounds half (Der.natOfBytes (stretch seed (2 * label) (half / 8)))
    (by omega)
  have hsteps : 2 ^ 16 ≤ 2 ^ half := Nat.pow_le_pow_right (by decide) hlong
  obtain ⟨rest, rfl⟩ : ∃ rest, half = rest + 2 := ⟨half - 2, by omega⟩
  have hpow1 : 2 ^ (rest + 2 - 1) = 2 * 2 ^ rest := Nat.pow_succ'
  have hpow2 : 2 ^ (rest + 2) = 2 * (2 * 2 ^ rest) := by rw [Nat.pow_succ', Nat.pow_succ']
  have hpow3 : 2 ^ (rest + 2 + 1) = 2 * (2 * (2 * 2 ^ rest)) := by
    rw [Nat.pow_succ', Nat.pow_succ', Nat.pow_succ']
  rw [Nat.add_sub_cancel] at hlow hhigh hstart hend
  omega

theorem generate?_eq_some {seed : List UInt8} {key : PrivateKey} (h : generate? seed = some key) :
    drawPrime? seed 0 = some key.prime1 ∧ drawPrime? seed 1 = some key.prime2 ∧
      inverse? newExponent ((key.prime1 - 1) * (key.prime2 - 1)) = some key.secret ∧
      key.Sound ∧ key.prime1 ≠ key.prime2 := by
  unfold generate? at h
  obtain ⟨p, hp, h⟩ := Option.bind_eq_some_iff.mp h
  obtain ⟨q, hq, h⟩ := Option.bind_eq_some_iff.mp h
  obtain ⟨d, hd, h⟩ := Option.bind_eq_some_iff.mp h
  obtain ⟨⟨hsound, hne⟩, heq⟩ := Option.ite_none_right_eq_some.mp h
  obtain rfl := Option.some.inj heq
  exact ⟨hp, hq, hd, hsound, hne⟩

/-- How long a product is. -/
theorem bitLength_mul {half p q : Nat} (hp : 2 ^ (half - 1) ≤ p ∧ p < 2 ^ (half + 1))
    (hq : 2 ^ (half - 1) ≤ q ∧ q < 2 ^ (half + 1)) :
    2 * (half - 1) + 1 ≤ bitLength (p * q) ∧ bitLength (p * q) ≤ 2 * (half + 1) := by
  have hlow : 2 ^ (2 * (half - 1)) ≤ p * q := by
    rw [Nat.two_mul, Nat.pow_add]
    exact Nat.mul_le_mul hp.1 hq.1
  have hhigh : p * q < 2 ^ (2 * (half + 1)) := by
    rw [Nat.two_mul, Nat.pow_add]
    exact Nat.mul_lt_mul'' hp.2 hq.2
  have hne : p * q ≠ 0 := Nat.ne_of_gt (Nat.lt_of_lt_of_le (Nat.two_pow_pos _) hlow)
  rw [bitLength, if_neg hne]
  exact ⟨Nat.succ_le_succ ((Nat.le_log2 hne).mpr hlow), (Nat.log2_lt hne).mpr hhigh⟩

/-- A drawn key is fresh if its factors are primes. -/
theorem fresh_of_generate? {seed : List UInt8} {key : PrivateKey} (h : generate? seed = some key)
    (hprime1 : key.prime1.Prime) (hprime2 : key.prime2.Prime) : key.Fresh := by
  obtain ⟨hdraw1, hdraw2, hsecret, hsound, hne⟩ := generate?_eq_some h
  have hbits := bitLength_mul (drawPrime?_bounds hdraw1) (drawPrime?_bounds hdraw2)
  rw [hsound.modulus_eq] at hbits
  have hhalf : newBits / 2 = 1024 := by decide
  rw [hhalf] at hbits
  have hlength : key.toPublic.bits = bitLength key.modulus := rfl
  have hgreatest : greatestBits = 4096 := rfl
  have hphi : 0 < (key.prime1 - 1) * (key.prime2 - 1) :=
    Nat.mul_pos (Nat.sub_pos_of_lt hsound.prime1_gt) (Nat.sub_pos_of_lt hsound.prime2_gt)
  refine ⟨hsound, hprime1, hprime2, hne, ?_, by omega, ?_⟩
  · rw [PublicKey.size]
    omega
  · calc key.secret
        < (key.prime1 - 1) * (key.prime2 - 1) := inverse?_lt hphi hsecret
      _ ≤ key.prime1 * key.prime2 := Nat.mul_le_mul (Nat.sub_le ..) (Nat.sub_le ..)
      _ = key.modulus := hsound.modulus_eq

end SessionGate.Rsa
