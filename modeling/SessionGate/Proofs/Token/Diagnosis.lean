import SessionGate.Proofs.Token.Verdict

/-!
What a token is told that is signed as it should be. Its signature is blamed for two faults that are not
its own: a key too long to be checked with, and a payload outside the alphabet. All that the payload may
hold instead of claims in their time is told apart from that.
-/

namespace SessionGate.Token

namespace Authority

variable {a : Authority} {token : String}

/-- Every answer that a properly signed token can get. -/
structure Diagnosis (a : Authority) (t : SignedToken a token) : Prop where
  blamed_iff : ∀ now, a.verify now token = .error .wrongSignature ↔
    ¬ t.key.Short ∨ Base64.decodeChars? Base64.url t.payload = none
  malformed : t.key.Short → ∀ bytes fault, Base64.decodeChars? Base64.url t.payload = some bytes →
    a.readPayload bytes = .error fault → ∀ now, a.verify now token = .error (.invalidToken fault)
  formed : t.key.Short → ∀ bytes c, Base64.decodeChars? Base64.url t.payload = some bytes →
    a.readPayload bytes = .ok c → ∀ now, a.verify now token = (a.checkWindow now c).map fun _ => c

theorem judge_of_readPayload_error {payload : List Char} {bytes : List UInt8} {fault : TokenFault}
    (hbytes : Base64.decodeChars? Base64.url payload = some bytes)
    (hread : a.readPayload bytes = .error fault) (now : Instant) :
    a.judge now payload = .error (.invalidToken fault) := by
  rw [judge, hbytes]
  simp only [hread]
  rfl

theorem checkWindow_ne_wrongSignature (now : Instant) (c : Claims) :
    a.checkWindow now c ≠ .error .wrongSignature := by
  unfold checkWindow
  split
  · exact nofun
  · split <;> exact nofun

/-- The payload alone is blamed on the signature where it cannot be decoded, and nowhere else. -/
theorem judge_eq_wrongSignature_iff {payload : List Char} {now : Instant} :
    a.judge now payload = .error .wrongSignature ↔ Base64.decodeChars? Base64.url payload = none := by
  cases hbytes : Base64.decodeChars? Base64.url payload with
  | none =>
    rw [judge, hbytes]
    exact iff_of_true rfl rfl
  | some bytes =>
    refine iff_of_false (fun h => ?_) (Option.some_ne_none bytes)
    cases hread : a.readPayload bytes with
    | error fault =>
      rw [judge_of_readPayload_error hbytes hread] at h
      cases h
    | ok c =>
      rw [judge_of_reads (reads_iff.mpr ⟨bytes, hbytes, hread⟩)] at h
      exact checkWindow_ne_wrongSignature now c (Except.map_eq_error_iff.mp h)

theorem diagnosis (hsound : a.keys.Sound) (t : SignedToken a token) : Diagnosis a t := by
  obtain ⟨hopen, hlong⟩ := opened_signed t (hsound.select? t.key_eq)
  have hjudged : t.key.Short → ∀ now, a.verify now token = a.judge now t.payload := by
    intro hshort now
    rw [verify_eq, hopen hshort]
    rfl
  refine ⟨fun now => ?_, fun hshort bytes fault hbytes hread now => ?_,
    fun hshort bytes c hbytes hread now => ?_⟩
  · by_cases hshort : t.key.Short
    · rw [hjudged hshort, judge_eq_wrongSignature_iff]
      exact (or_iff_right (not_not_intro hshort)).symm
    · exact iff_of_true (verify_signed_of_long t (hsound.select? t.key_eq) hshort now) (.inl hshort)
  · rw [hjudged hshort, judge_of_readPayload_error hbytes hread]
  · rw [hjudged hshort, judge_of_reads (reads_iff.mpr ⟨bytes, hbytes, hread⟩)]

end Authority

namespace Sample

theorem exists_signedToken_over (payload : List Char) (hpayload : '.' ∉ payload) :
    ∃ (token : String) (t : SignedToken sharing token), t.key.Short ∧ t.payload = payload := by
  have hsign : ∀ message, sharing.sign? message =
      some (Hmac.code (List.replicate 32 7) message) := fun _ => rfl
  obtain ⟨t, hkey, hsame⟩ := Authority.exists_signedToken_over check_sharing sound_sharing hpayload
    (hsign _)
  refine ⟨_, t, ?_, hsame⟩
  rw [hkey]
  trivial

end Sample

/-- A proper signature is blamed for a payload of one exclamation mark, and not for one of no bytes. -/
theorem Authority.diagnosis_sample : ∃ foreign empty,
    (∃ t : SignedToken Sample.sharing foreign, t.key.Short ∧ t.payload = ['!']) ∧
      (∀ now, Sample.sharing.verify now foreign = .error .wrongSignature) ∧
      (∃ t : SignedToken Sample.sharing empty, t.key.Short ∧ t.payload = []) ∧
      ∀ now, Sample.sharing.verify now empty = .error (.invalidToken .json) := by
  have hsound : Sample.sharing.keys.Sound := trivial
  obtain ⟨foreign, t, hshort, hpayload⟩ := Sample.exists_signedToken_over ['!'] (by decide)
  obtain ⟨empty, t', hshort', hpayload'⟩ := Sample.exists_signedToken_over [] (by decide)
  refine ⟨foreign, empty, ⟨t, hshort, hpayload⟩, fun now => ?_, ⟨t', hshort', hpayload'⟩, ?_⟩
  · refine ((diagnosis hsound t).blamed_iff now).mpr (.inr ?_)
    rw [hpayload]
    decide +kernel
  · refine (diagnosis hsound t').malformed hshort' [] .json ?_ rfl
    rw [hpayload']
    rfl

end SessionGate.Token
