import SessionGate.Proofs.Encoding.Der
import SessionGate.Rsa.Signature

/-!
A signature fits its message under the public half of the key that made it, as long as the key is not
longer than a public key may be. No longer key accepts any signature at all.
-/

namespace SessionGate.Rsa

theorem powMod_eq (n b e : Nat) : powMod n b e = b ^ e % n := by
  fun_induction powMod n b e with
  | case1 => simp
  | case2 b e he half hodd ih =>
    have h : b * (b ^ 2) ^ (e / 2) = b ^ e := by
      rw [← Nat.pow_mul, ← Nat.pow_succ', Nat.succ_eq_add_one, show 2 * (e / 2) + 1 = e by omega]
    simp only [half, ih, ← Nat.pow_two]
    rw [Nat.mul_mod, Nat.mod_mod, ← Nat.pow_mod (b ^ 2), ← Nat.mul_mod, h]
  | case3 b e he half hodd ih =>
    have h : (b ^ 2) ^ (e / 2) = b ^ e := by
      rw [← Nat.pow_mul, show 2 * (e / 2) = e by omega]
    simp only [half, ih, ← Nat.pow_two, ← Nat.pow_mod (b ^ 2), h]

theorem lt_pow_size (k : PublicKey) : k.modulus < 256 ^ k.size := by
  have hbits : k.modulus < 2 ^ k.bits := by
    unfold PublicKey.bits bitLength
    split
    · next h => rw [h]; decide
    · exact Nat.lt_log2_self
  calc k.modulus
      < 2 ^ k.bits := hbits
    _ ≤ 2 ^ (8 * k.size) := by
      apply Nat.pow_le_pow_right (by decide)
      unfold PublicKey.size
      omega
    _ = 256 ^ k.size := by rw [Nat.pow_mul]

theorem natOfBytes_replicate_zero (count : Nat) (bytes : List UInt8) :
    Der.natOfBytes (List.replicate count 0 ++ bytes) = Der.natOfBytes bytes := by
  induction count with
  | zero => rfl
  | succ count ih =>
    rw [List.replicate_succ, List.cons_append, Der.natOfBytes_cons, ih]
    simp

theorem natOfBytes_fixedBytes (size n : Nat) : Der.natOfBytes (fixedBytes size n) = n := by
  rw [fixedBytes, natOfBytes_replicate_zero, Der.natOfBytes_bytesOfNat]

theorem length_fixedBytes {size n : Nat} (h : n < 256 ^ size) :
    (fixedBytes size n).length = size := by
  have hle := Der.length_bytesOfNat_le h
  rw [fixedBytes, List.length_append, List.length_replicate]
  omega

theorem fixedBytes_natOfBytes (bytes : List UInt8) :
    fixedBytes bytes.length (Der.natOfBytes bytes) = bytes :=
  Der.natOfBytes_inj (length_fixedBytes (Der.natOfBytes_lt bytes)) (natOfBytes_fixedBytes _ _)

theorem length_of_block? {size : Nat} {message block : List UInt8}
    (h : block? size message = some block) : block.length = size := by
  unfold block? at h
  generalize digestHead ++ Sha256.digest message = tail at h
  dsimp only at h
  split at h
  · cases h
  · next hroom =>
    obtain rfl := Option.some.inj h
    simp only [List.length_append, List.length_replicate, List.length_cons, List.length_nil]
    omega

/-- What a signature of a message is, whatever the length of the key: a number below the modulus, in
as many bytes, whose power is the message's block. -/
structure PublicKey.Verifies (k : PublicKey) (message signature : List UInt8) : Prop where
  length_eq : signature.length = k.size
  lt_modulus : Der.natOfBytes signature < k.modulus
  power_eq : ∃ block, block? k.size message = some block ∧
    Der.natOfBytes signature ^ k.exponent % k.modulus = Der.natOfBytes block

/-- A number fills exactly the bytes of its own value. -/
theorem fixedBytes_eq_iff {size n : Nat} {bytes : List UInt8}
    (hlength : bytes.length = size) : fixedBytes size n = bytes ↔ n = Der.natOfBytes bytes := by
  constructor
  · intro h
    rw [← h, natOfBytes_fixedBytes]
  · intro h
    rw [h, ← hlength, fixedBytes_natOfBytes]

theorem accepts_iff {k : PublicKey} {message signature : List UInt8} :
    k.accepts message signature = true ↔
      k.Sound ∧ k.bits ≤ greatestBits ∧ k.Verifies message signature := by
  have hblock : (some (fixedBytes k.size (powMod k.modulus (Der.natOfBytes signature) k.exponent)) =
      block? k.size message) ↔ ∃ block, block? k.size message = some block ∧
        Der.natOfBytes signature ^ k.exponent % k.modulus = Der.natOfBytes block := by
    rw [powMod_eq, eq_comm]
    constructor
    · intro h
      exact ⟨_, h, (fixedBytes_eq_iff (length_of_block? h)).mp rfl⟩
    · rintro ⟨block, hblock, hpower⟩
      rw [hblock, (fixedBytes_eq_iff (length_of_block? hblock)).mpr hpower]
  unfold PublicKey.accepts
  simp only [Bool.and_eq_true, decide_eq_true_eq, beq_iff_eq, hblock]
  constructor
  · rintro ⟨⟨⟨hsound, hbits⟩, hlength⟩, hlt, hpower⟩
    exact ⟨hsound, hbits, hlength, hlt, hpower⟩
  · rintro ⟨hsound, hbits, hlength, hlt, hpower⟩
    exact ⟨⟨⟨hsound, hbits⟩, hlength⟩, hlt, hpower⟩

/-- What a key signs with, its public half verifies. -/
theorem verifies_of_sign? {k : PrivateKey} (hsound : k.toPublic.Sound)
    {message signature : List UInt8} (h : k.sign? message = some signature) :
    k.toPublic.Verifies message signature := by
  unfold PrivateKey.sign? at h
  dsimp only at h
  obtain ⟨block, hblock, h⟩ := Option.bind_eq_some_iff.mp h
  obtain ⟨hback, hsignature⟩ := Option.ite_none_right_eq_some.mp h
  obtain rfl := Option.some.inj hsignature
  have hpos : 0 < k.modulus := Nat.lt_of_le_of_lt (Nat.zero_le _) hsound.exponent_lt
  have hlt : powMod k.modulus (Der.natOfBytes block) k.secret < k.modulus := by
    rw [powMod_eq]
    exact Nat.mod_lt _ hpos
  refine ⟨length_fixedBytes (Nat.lt_trans hlt (lt_pow_size k.toPublic)), ?_, block, hblock, ?_⟩
  · rwa [natOfBytes_fixedBytes]
  · rw [natOfBytes_fixedBytes]
    change _ ^ k.exponent % k.modulus = _
    rw [← powMod_eq, hback]

/-- A signature fits the message that it was made for, exactly where keys of its length are taken. -/
theorem accepts_of_sign? {k : PrivateKey} (hsound : k.toPublic.Sound) {message signature : List UInt8}
    (h : k.sign? message = some signature) :
    k.toPublic.accepts message signature = decide (k.toPublic.bits ≤ greatestBits) := by
  rw [Bool.eq_iff_iff, accepts_iff, decide_eq_true_eq]
  constructor
  · rintro ⟨-, hbits, -⟩
    exact hbits
  · intro hbits
    exact ⟨hsound, hbits, verifies_of_sign? hsound h⟩

end SessionGate.Rsa
