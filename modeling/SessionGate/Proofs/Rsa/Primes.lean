import Mathlib.FieldTheory.Finite.Basic
import SessionGate.Proofs.Rsa.Signature

/-!
Keys with prime factors sign every message that they have room for: on numbers below the modulus, raising
to the secret exponent and then to the public one changes nothing.
-/

namespace SessionGate.Rsa

/-- Raising to a power that is one more than a multiple of `p - 1` changes nothing modulo `p`. -/
theorem pow_modEq_self {p d : Nat} (hp : p.Prime) (hodd : p ≠ 2) (h : d % (p - 1) = 1 % (p - 1))
    (m : Nat) : m ^ d ≡ m [MOD p] := by
  have : Fact p.Prime := ⟨hp⟩
  have hlarge : 1 < p - 1 := by
    have htwo := hp.two_le
    omega
  rw [Nat.mod_eq_of_lt hlarge] at h
  rw [← ZMod.natCast_eq_natCast_iff, Nat.cast_pow]
  obtain ⟨q, rfl⟩ : ∃ q, d = (p - 1) * q + 1 := by
    have hdivision := Nat.div_add_mod d (p - 1)
    rw [h] at hdivision
    exact ⟨d / (p - 1), hdivision.symm⟩
  by_cases hzero : (m : ZMod p) = 0
  · rw [hzero, pow_succ, mul_zero]
  · rw [pow_succ, pow_mul, ZMod.pow_card_sub_one_eq_one hzero, one_pow, one_mul]

/-- The exponents of a key with two different prime factors undo each other. -/
theorem powMod_powMod {k : PrivateKey} (hsound : k.Sound) (hprime1 : k.prime1.Prime)
    (hprime2 : k.prime2.Prime) (hne : k.prime1 ≠ k.prime2) {m : Nat} (hm : m < k.modulus) :
    powMod k.modulus (powMod k.modulus m k.secret) k.exponent = m := by
  have hodd : ¬ 2 ∣ k.prime1 * k.prime2 := by
    have hmodulus : k.modulus % 2 = 1 := hsound.public_sound.modulus_odd
    rw [hsound.modulus_eq]
    omega
  have hodd1 : k.prime1 ≠ 2 := fun h => hodd (h ▸ Nat.dvd_mul_right _ _)
  have hodd2 : k.prime2 ≠ 2 := fun h => hodd (h ▸ Nat.dvd_mul_left _ _)
  have hcoprime : Nat.Coprime k.prime1 k.prime2 := (Nat.coprime_primes hprime1 hprime2).mpr hne
  have hmod : m ^ (k.secret * k.exponent) ≡ m [MOD k.prime1 * k.prime2] :=
    (Nat.modEq_and_modEq_iff_modEq_mul hcoprime).mp
      ⟨pow_modEq_self hprime1 hodd1 hsound.inverse1 m, pow_modEq_self hprime2 hodd2 hsound.inverse2 m⟩
  rw [hsound.modulus_eq] at hmod
  calc powMod k.modulus (powMod k.modulus m k.secret) k.exponent
      = m ^ (k.secret * k.exponent) % k.modulus := by
        rw [powMod_eq, powMod_eq, ← Nat.pow_mod, ← Nat.pow_mul]
    _ = m % k.modulus := hmod
    _ = m := Nat.mod_eq_of_lt hm

/-- A modulus fills its bytes up to the first. -/
theorem pow_le_modulus {k : PublicKey} {count : Nat} (h : k.size = count + 1) :
    256 ^ count ≤ k.modulus := by
  have hsize : (k.bits + 7) / 8 = count + 1 := h
  have hpositive : k.modulus ≠ 0 := by
    intro hzero
    rw [PublicKey.bits, bitLength, if_pos hzero] at hsize
    omega
  have hbits : k.bits = k.modulus.log2 + 1 := if_neg hpositive
  calc 256 ^ count
      = 2 ^ (8 * count) := by rw [Nat.pow_mul]
    _ ≤ 2 ^ k.modulus.log2 := Nat.pow_le_pow_right (by decide) (by omega)
    _ ≤ k.modulus := Nat.log2_self_le hpositive

/-- A block begins with a zero byte and a one, so it is well below every modulus of its length. -/
theorem natOfBytes_lt_of_block? {k : PublicKey} {message block : List UInt8}
    (h : block? k.size message = some block) : Der.natOfBytes block < k.modulus := by
  have hlength := length_of_block? h
  obtain ⟨rest, rfl⟩ : ∃ rest, block = 0 :: 1 :: rest := by
    unfold block? at h
    dsimp only at h
    split at h
    · cases h
    · exact ⟨_, (Option.some.inj h).symm⟩
  have hmodulus : 256 ^ (rest.length + 1) ≤ k.modulus := pow_le_modulus hlength.symm
  have hrest := Der.natOfBytes_lt rest
  rw [Nat.pow_succ] at hmodulus
  simp only [Der.natOfBytes_cons, UInt8.toNat_zero, UInt8.toNat_one]
  omega

theorem PrivateKey.exists_sign? {k : PrivateKey} (hsound : k.Sound) (hprime1 : k.prime1.Prime)
    (hprime2 : k.prime2.Prime) (hne : k.prime1 ≠ k.prime2) (hroom : 62 ≤ k.toPublic.size)
    (message : List UInt8) : ∃ signature, k.sign? message = some signature := by
  have hlength : (digestHead ++ Sha256.digest message).length + 11 = 62 := by
    simp [digestHead, Sha256.length_digest]
  obtain ⟨block, hblock⟩ : ∃ block, block? k.toPublic.size message = some block := by
    unfold block?
    dsimp only
    rw [if_neg (by omega)]
    exact ⟨_, rfl⟩
  have hback := powMod_powMod hsound hprime1 hprime2 hne (natOfBytes_lt_of_block? hblock)
  rw [sign?]
  simp only [hblock, Option.bind_eq_bind, Option.bind_some, hback, if_true]
  exact ⟨_, rfl⟩

end SessionGate.Rsa
