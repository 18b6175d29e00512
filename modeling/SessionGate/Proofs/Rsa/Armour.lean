import SessionGate.Proofs.Encoding.Der
import SessionGate.Proofs.Encoding.Pem
import SessionGate.Proofs.Rsa.Primes

/-!
Keys read back from the armoured texts they are written as. Main statements: `PrivateKey.ofPem?_toPem`,
`PublicKey.ofPem?_toPem`.
-/

namespace SessionGate.Der

theorem length_writeLength_le {n : Nat} (h : n < longest) : (writeLength n).length ≤ 5 := by
  rw [writeLength]
  split
  · exact Nat.le_add_left 1 4
  · have hcount := length_bytesOfNat_le h
    dsimp only
    rw [List.length_cons]
    omega

theorem length_writeTagged_le (tag : UInt8) (content : List UInt8) (h : content.length < longest) :
    (writeTagged tag content).length ≤ content.length + 6 := by
  have hlength := length_writeLength_le h
  rw [writeTagged, List.length_append, List.length_cons]
  omega

theorem length_integerContent_le {n size : Nat} (h : n < 256 ^ size) :
    (integerContent n).length ≤ size + 1 := by
  have hlength := length_bytesOfNat_le h
  unfold integerContent
  split
  · exact Nat.le_add_left 1 size
  · next b rest hbytes =>
    rw [hbytes] at hlength
    split
    · exact Nat.le_succ_of_le hlength
    · exact Nat.succ_le_succ hlength

theorem length_writeAll_integers {size : Nat} (hsize : size < 1000) {numbers : List Nat}
    (h : ∀ n ∈ numbers, n < 256 ^ size) :
    (writeAll (numbers.map .integer)).length ≤ numbers.length * (size + 7) := by
  induction numbers with
  | nil => exact Nat.zero_le _
  | cons n numbers ih =>
    obtain ⟨hn, hrest⟩ := List.forall_mem_cons.mp h
    have hcontent := length_integerContent_le hn
    have hlongest : longest = 4294967296 := rfl
    have hfirst := length_writeTagged_le integerTag (integerContent n) (by omega)
    have hmore := ih hrest
    rw [List.map_cons, writeAll, Value.write, List.length_append, List.length_cons, Nat.succ_mul]
    omega

end SessionGate.Der

namespace SessionGate.Rsa

theorem allProper_integers (numbers : List Nat) : Der.AllProper (numbers.map .integer) := by
  induction numbers with
  | nil => trivial
  | cons n numbers ih => exact ⟨trivial, ih⟩

/-- A few numbers of a key's length, and how long they are written. -/
theorem read?_integers (numbers : List Nat) (hcount : numbers.length ≤ 9) {size : Nat} (hsize : size ≤ 512)
    (h : ∀ n ∈ numbers, n < 256 ^ size) :
    Der.read? (Der.Value.sequence (numbers.map .integer)).write = some (.sequence (numbers.map .integer)) ∧
      (Der.Value.sequence (numbers.map .integer)).write.length ≤ 4677 := by
  have hlongest : Der.longest = 4294967296 := rfl
  have hitems : (Der.writeAll (numbers.map .integer)).length ≤ 9 * (512 + 7) :=
    calc (Der.writeAll (numbers.map .integer)).length
        ≤ numbers.length * (size + 7) := Der.length_writeAll_integers (by omega) h
      _ ≤ 9 * (512 + 7) := Nat.mul_le_mul hcount (by omega)
  have hlength := Der.length_writeTagged_le Der.sequenceTag (Der.writeAll (numbers.map .integer))
    (by omega)
  have hwrite : (Der.Value.sequence (numbers.map .integer)).write =
      Der.writeTagged Der.sequenceTag (Der.writeAll (numbers.map .integer)) := rfl
  rw [← hwrite] at hlength
  exact ⟨Der.read?_write (allProper_integers numbers) (by omega), by omega⟩

/-- A key as a generator makes it: of two different primes, with room for a signature, not longer than a
public key may be, and with a secret exponent below the modulus. -/
structure PrivateKey.Fresh (k : PrivateKey) : Prop where
  sound : k.Sound
  prime1 : k.prime1.Prime
  prime2 : k.prime2.Prime
  different : k.prime1 ≠ k.prime2
  room : 62 ≤ k.toPublic.size
  short : k.toPublic.bits ≤ greatestBits
  secret_lt : k.secret < k.modulus

theorem size_le {k : PublicKey} (h : k.bits ≤ greatestBits) : k.size ≤ 512 := by
  have hgreatest : greatestBits = 4096 := rfl
  rw [PublicKey.size]
  omega

theorem isLabel_bare : Pem.IsLabel bareLabel := ⟨by decide, by decide⟩

theorem isLabel_wrappedPublic : Pem.IsLabel wrappedPublicLabel := ⟨by decide, by decide⟩

theorem inverse?_lt {a m n : Nat} (hm : 0 < m) (h : inverse? a m = some n) : n < m := by
  have hgo : ∀ fuel r r' s s', inverse?.go m fuel r r' s s' = some n → n < m := by
    intro fuel
    induction fuel with
    | zero => exact fun _ _ _ _ h => nomatch h
    | succ fuel ih =>
      intro r r' s s' h
      rw [inverse?.go] at h
      split at h
      · split at h
        · obtain rfl := Option.some.inj h
          have hnonneg := Int.emod_nonneg s' (b := (m : Int)) (by omega)
          have hlt := Int.emod_lt_of_pos s' (b := (m : Int)) (by omega)
          omega
        · cases h
      · exact ih _ _ _ _ h
  exact hgo _ _ _ _ _ h

/-- A public key in its wrapper. -/
theorem read?_wrapped {bytes : List UInt8} (h : bytes.length ≤ 4677) :
    Der.read? (Der.Value.sequence [.sequence algorithm, .bits bytes]).write =
      some (.sequence [.sequence algorithm, .bits bytes]) := by
  have hlongest : Der.longest = 4294967296 := rfl
  have halgorithm : (Der.Value.sequence algorithm).write.length = 15 := by
    decide +kernel
  have hbits := Der.length_writeTagged_le Der.bitsTag (0 :: bytes) (by rw [List.length_cons]; omega)
  have hbitsWrite : (Der.Value.bits bytes).write = Der.writeTagged Der.bitsTag (0 :: bytes) := rfl
  have hitems : (Der.writeAll [.sequence algorithm, .bits bytes]).length ≤ 4699 := by
    rw [Der.writeAll, Der.writeAll, Der.writeAll, List.append_nil, List.length_append, halgorithm,
      hbitsWrite]
    rw [List.length_cons] at hbits
    omega
  have hlength := Der.length_writeTagged_le Der.sequenceTag
    (Der.writeAll [.sequence algorithm, .bits bytes]) (by omega)
  refine Der.read?_write (show (_ ∧ _) from ⟨⟨trivial, trivial, trivial⟩, trivial, trivial⟩) ?_
  rw [Der.Value.write]
  omega

theorem PublicKey.ofPem?_toPem {k : PublicKey} (hsound : k.Sound) (hshort : k.bits ≤ greatestBits) :
    ofPem? k.toPem = some k := by
  have hnumbers : ∀ n ∈ [k.modulus, k.exponent], n < 256 ^ k.size := by
    intro n hn
    have hmodulus := lt_pow_size k
    have hexponent := hsound.exponent_lt
    simp only [List.mem_cons, List.not_mem_nil, or_false] at hn
    rcases hn with rfl | rfl <;> omega
  obtain ⟨hread, hlength⟩ := read?_integers [k.modulus, k.exponent] (by simp) (size_le hshort) hnumbers
  have hder : k.toDer = .sequence ([k.modulus, k.exponent].map .integer) := rfl
  rw [← hder] at hread hlength
  have hpem : Pem.read? k.toPem = some { label := wrappedPublicLabel, bytes := _ } :=
    Pem.read?_write isLabel_wrappedPublic (by rw [Der.write_eq]; exact List.cons_ne_nil _ _)
  have hunwrapped : ofWrappedDer? (.sequence [.sequence algorithm, .bits k.toDer.write]) = some k := by
    rw [ofWrappedDer?, if_pos (by decide), hread]
    rfl
  rw [ofPem?, hpem]
  simp only [Option.bind_eq_bind, Option.bind_some, read?_wrapped hlength, if_true, hunwrapped]
  rw [if_pos ⟨hsound, hshort⟩]

/-- The numbers of a private key in the order in which they are written. -/
def PrivateKey.numbers (k : PrivateKey) : List Nat :=
  [0, k.modulus, k.exponent, k.secret, k.prime1, k.prime2, k.secret % (k.prime1 - 1),
    k.secret % (k.prime2 - 1), (inverse? k.prime2 k.prime1).getD 0]

theorem PrivateKey.toDer_eq (k : PrivateKey) : k.toDer = .sequence (k.numbers.map .integer) := rfl

/-- None of its numbers is longer than the modulus. -/
theorem PrivateKey.Fresh.le_modulus {k : PrivateKey} (h : k.Fresh) {n : Nat} (hn : n ∈ k.numbers) :
    n ≤ k.modulus := by
  have hpositive1 := Nat.lt_trans Nat.zero_lt_one h.sound.prime1_gt
  have hpositive2 := Nat.lt_trans Nat.zero_lt_one h.sound.prime2_gt
  have hprime1 : k.prime1 ≤ k.modulus := h.sound.modulus_eq ▸ Nat.le_mul_of_pos_right _ hpositive2
  have hprime2 : k.prime2 ≤ k.modulus := h.sound.modulus_eq ▸ Nat.le_mul_of_pos_left _ hpositive1
  have hinverse : (inverse? k.prime2 k.prime1).getD 0 ≤ k.prime1 := by
    cases hfound : inverse? k.prime2 k.prime1 with
    | none => exact Nat.zero_le _
    | some n => exact Nat.le_of_lt (inverse?_lt hpositive1 hfound)
  have hexponent : k.exponent < k.modulus := h.sound.public_sound.exponent_lt
  have hsecret := h.secret_lt
  have hrest1 := Nat.mod_le k.secret (k.prime1 - 1)
  have hrest2 := Nat.mod_le k.secret (k.prime2 - 1)
  simp only [numbers, List.mem_cons, List.not_mem_nil, or_false] at hn
  rcases hn with rfl | rfl | rfl | rfl | rfl | rfl | rfl | rfl | rfl <;> omega

theorem PrivateKey.ofPem?_toPem {k : PrivateKey} (h : k.Fresh) : ofPem? k.toPem = some k := by
  have hnumbers : ∀ n ∈ k.numbers, n < 256 ^ k.toPublic.size := fun n hn =>
    Nat.lt_of_le_of_lt (h.le_modulus hn) (lt_pow_size k.toPublic)
  obtain ⟨hread, -⟩ := read?_integers k.numbers (Nat.le_refl 9) (size_le h.short) hnumbers
  rw [← k.toDer_eq] at hread
  have hpem : Pem.read? k.toPem = some { label := bareLabel, bytes := k.toDer.write } :=
    Pem.read?_write isLabel_bare (by rw [Der.write_eq]; exact List.cons_ne_nil _ _)
  have hkey : ofDer? k.toDer = some k := rfl
  rw [ofPem?, hpem]
  simp only [Option.bind_eq_bind, Option.bind_some, hread, if_true, hkey]
  rw [if_pos h.sound]

theorem PrivateKey.hasEarlierOpening_toPem (k : PrivateKey) : Pem.hasEarlierOpening k.toPem = false :=
  Pem.hasEarlierOpening_write _

end SessionGate.Rsa
