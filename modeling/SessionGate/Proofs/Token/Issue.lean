import SessionGate.Proofs.Clock.Instant
import SessionGate.Proofs.Token.Claims
import SessionGate.Proofs.Token.Verify

/-!
What checking makes of a token that was issued. It is a proper token for every authority that has the
key to check it, the issuing one among them, and then its window of time alone decides, unless the key is
too long to check signatures with.
-/

namespace SessionGate.Token

theorem charBytes_eq (chars : List Char) : charBytes chars = Json.bytes chars := by
  rw [charBytes, toList_toUTF8, String.toList_ofList]
  rfl

theorem decodeChars?_encodeJson (v : Json) :
    Base64.decodeChars? Base64.url (encodeJson v) = some (Json.bytes v.chars) := by
  rw [encodeJson, Base64.decodeChars?_encode, charBytes_eq]

theorem dot_not_mem_encode (bytes : List UInt8) :
    '.' ∉ (Base64.encode Base64.url bytes).toList := by
  intro h
  exact dot_not_mem_url (Base64.mem_chars_of_mem_encode h)

/-- The session that a token names, whatever its signature is worth. -/
def sessionOf? (token : String) : Option String := do
  let segments ← Segments.ofText? token
  let payload ← Base64.decodeChars? Base64.url segments.payload
  let claims ← (Json.read? payload).bind Claims.ofJson?
  some claims.session

/-- The keys of an authority belong together: what is published under the active id is the public
half of the key that signs. -/
def Keys.Consistent : Keys → Prop
  | .shared _ => True
  | .asymmetric id signing published =>
    signing.Sound ∧ published.find? id = some (PublishedKey.ofKey id signing.toPublic)

def Keys.Usable : Keys → Prop
  | .shared _ => True
  | .asymmetric _ signing _ => signing.toPublic.bits ≤ Rsa.greatestBits

instance (k : Keys) : Decidable k.Usable :=
  match k with
  | .shared _ => inferInstanceAs (Decidable True)
  | .asymmetric _ _ _ => inferInstanceAs (Decidable (_ ≤ _))

namespace Keys

/-- The key that checks what these keys sign. -/
def verifier : Keys → Key
  | .shared secret => .secret secret
  | .asymmetric _ signing _ => .rsa signing.toPublic

/-- Keys that can check what others sign: they are the same secret, or publish the public half of the
signing key under its id. -/
def Check : Keys → Keys → Prop
  | .shared secret, .shared signing => secret = signing
  | .asymmetric _ _ published, .asymmetric id signing _ =>
    ∃ entry, published.find? id = some entry ∧ entry.key? = some signing.toPublic
  | _, _ => False

theorem short_verifier_iff {keys : Keys} : keys.verifier.Short ↔ keys.Usable := by
  cases keys <;> rfl

end Keys

theorem PublishedKey.key?_ofKey (id : String) (key : Rsa.PublicKey) :
    (ofKey id key).key? = some key := by
  have hdecode : ∀ n, Base64.decode? Base64.url (Base64.encode Base64.url (Der.bytesOfNat n)) =
      some (Der.bytesOfNat n) := fun n => Base64.decodeChars?_encode _ _
  simp only [key?, ofKey, hdecode, Option.bind_eq_bind, Option.bind_some, Der.natOfBytes_bytesOfNat]

theorem Keys.Consistent.check {keys : Keys} (h : keys.Consistent) : keys.Check keys := by
  cases keys with
  | shared secret => rfl
  | asymmetric id signing published => exact ⟨_, h.2, PublishedKey.key?_ofKey ..⟩

theorem Keys.Consistent.sound_verifier {keys : Keys} (h : keys.Consistent) : keys.verifier.Sound := by
  cases keys with
  | shared secret => trivial
  | asymmetric id signing published => exact h.1.public_sound

namespace Authority

variable {a b : Authority} {c : Claims} {token : String}

def signedPart (a : Authority) (c : Claims) : List Char :=
  encodeJson a.header.toJson ++ '.' :: encodeJson c.toJson

/-- What is issued is a token of the claims, and the ends of its window in whole seconds. -/
theorem issue_eq_ok {now expiry : Instant} {session : String} {subject : Int64} {issued : Issued}
    (h : a.issue now expiry session subject = .ok issued) :
    a.tokenOf? (a.claims now expiry session subject) = some issued.token ∧
      issued.session = session ∧ issued.issuedAt = now.floor ∧ issued.expiresAt = expiry.floor := by
  unfold issue at h
  split at h
  · next token htoken =>
    obtain rfl := Except.ok.inj h
    exact ⟨htoken, rfl, rfl, rfl⟩
  · cases h

theorem expiry_nanos {now expiry : Instant} (h : expiry? now = some expiry) :
    expiry.nanos = now.nanos + 86400 * 1000000000 :=
  (Instant.add?_eq_some_iff.mp h).1

/-- The times in issued claims are whole seconds that sixty-four bits hold, a day apart. -/
theorem toInt_claims {now expiry : Instant} (h : expiry? now = some expiry)
    (hnonneg : 0 ≤ expiry.nanos) (session : String) (subject : Int64) :
    (a.claims now expiry session subject).issuedAt.toInt = now.seconds ∧
      (a.claims now expiry session subject).expiresAt.toInt = now.seconds + 86400 := by
  have hnanos := expiry_nanos h
  have hcalendar := Instant.inCalendar_iff.mp (Instant.add?_eq_some_iff.mp h).2
  have hfirst := now.seconds_eq
  have hlast := expiry.seconds_eq
  have hday : expiry.seconds = now.seconds + 86400 := by
    omega
  rw [← hday]
  constructor
  · exact Int64.toInt_ofInt_of_le (by omega) (by omega)
  · exact Int64.toInt_ofInt_of_le (by omega) (by omega)

/-- The window of issued claims ends within 64 bits at every authority. -/
theorem toInt_lastSecond_claims (b : Authority) {now expiry : Instant} (h : expiry? now = some expiry)
    (hnonneg : 0 ≤ expiry.nanos) (session : String) (subject : Int64) :
    (b.lastSecond (a.claims now expiry session subject)).toInt = now.seconds + 86400 + b.leeway := by
  obtain ⟨-, hends⟩ := toInt_claims (a := a) h hnonneg session subject
  have hnanos := expiry_nanos h
  have hcalendar := Instant.inCalendar_iff.mp (Instant.add?_eq_some_iff.mp h).2
  have hseconds := now.seconds_eq
  have hskew : b.leeway.natAbs ≤ 9223372036854775 := b.skew.told
  rw [toInt_lastSecond (by omega) (by omega), hends]

theorem exists_signature (h : a.tokenOf? c = some token) : ∃ signature,
    a.sign? (charBytes (a.signedPart c)) = some signature ∧
      Segments.ofText? token = some {
        signed := a.signedPart c
        header := encodeJson a.header.toJson
        payload := encodeJson c.toJson
        signature := (Base64.encode Base64.url signature).toList } := by
  unfold tokenOf? at h
  obtain ⟨signature, hsign, htoken⟩ := Option.bind_eq_some_iff.mp h
  obtain rfl := Option.some.inj htoken
  refine ⟨signature, hsign, ?_⟩
  exact Segments.ofText?_ofList _ _ _ (dot_not_mem_encode _) (dot_not_mem_encode _)

theorem sessionOf?_tokenOf? (h : a.tokenOf? c = some token) : sessionOf? token = some c.session := by
  obtain ⟨signature, -, hsegments⟩ := exists_signature h
  rw [sessionOf?, hsegments]
  simp only [Option.bind_eq_bind, Option.bind_some, decodeChars?_encodeJson, Json.read?_chars,
    Claims.ofJson?_toJson]

theorem fits_verifier (hsound : a.keys.verifier.Sound) {message signature : List UInt8}
    (h : a.sign? message = some signature) : a.keys.verifier.Fits message signature := by
  unfold sign? at h
  cases hkeys : a.keys with
  | shared secret =>
    rw [hkeys] at h
    exact (Option.some.inj h).symm
  | asymmetric id signing published =>
    rw [hkeys] at h hsound
    exact Rsa.verifies_of_sign? hsound h

/-- Who can check an authority's tokens finds the key for them by their header. -/
theorem select?_header (h : b.keys.Check a.keys) :
    a.algorithm = b.algorithm ∧ b.keys.select? a.header.keyId = some a.keys.verifier := by
  unfold algorithm header
  cases ha : a.keys with
  | shared signing =>
    cases hb : b.keys with
    | shared secret =>
      rw [ha, hb] at h
      obtain rfl : secret = signing := h
      exact ⟨rfl, rfl⟩
    | asymmetric => simp [ha, hb, Keys.Check] at h
  | asymmetric id signing own =>
    cases hb : b.keys with
    | shared => simp [ha, hb, Keys.Check] at h
    | asymmetric active other published =>
      rw [ha, hb] at h
      obtain ⟨entry, hfind, hkey⟩ := h
      exact ⟨rfl, by simp [Keys.select?, Keys.verifier, hfind, hkey]⟩

theorem readHeader_encodeJson (h : Header) : readHeader (encodeJson h.toJson) = .ok h := by
  rw [readHeader, decodeChars?_encodeJson]
  dsimp only
  rw [Json.read?_chars, Option.bind_some, Header.ofJson?_toJson]

/-- A payload, signed under an authority's own header. -/
def signedOver (a : Authority) (payload : List Char) (signature : List UInt8) : String :=
  String.ofList ((encodeJson a.header.toJson ++ '.' :: payload) ++
    '.' :: (Base64.encode Base64.url signature).toList)

/-- Whatever an authority signs is properly signed wherever it can be checked, be it claims or not. -/
theorem exists_signedToken_over (hcheck : b.keys.Check a.keys) (hsound : a.keys.verifier.Sound)
    {payload : List Char} {signature : List UInt8} (hpayload : '.' ∉ payload)
    (hsign : a.sign? (charBytes (encodeJson a.header.toJson ++ '.' :: payload)) = some signature) :
    ∃ t : SignedToken b (a.signedOver payload signature),
      t.key = a.keys.verifier ∧ t.payload = payload := by
  obtain ⟨halgorithm, hselect⟩ := select?_header hcheck
  let t : SignedToken b (a.signedOver payload signature) :=
    { headerText := encodeJson a.header.toJson
      payload
      signatureText := (Base64.encode Base64.url signature).toList
      pieces_eq := by
        rw [signedOver, String.toList_ofList, pieces_eq_three_iff]
        exact ⟨rfl, dot_not_mem_encode _, hpayload, dot_not_mem_encode _⟩
      header := a.header
      header_eq := readHeader_encodeJson a.header
      algorithm_eq := halgorithm
      key := a.keys.verifier
      key_eq := hselect
      signature
      signature_eq := Base64.decodeChars?_encode _ _
      fits := fits_verifier hsound hsign }
  exact ⟨t, rfl, rfl⟩

/-- Any value, signed under an authority's own header. -/
def signedText (a : Authority) (v : Json) (signature : List UInt8) : String :=
  a.signedOver (encodeJson v) signature

/-- What an authority signs is a proper token wherever it can be checked. -/
theorem exists_signedToken (hcheck : b.keys.Check a.keys) (hsound : a.keys.verifier.Sound) {v : Json}
    {signature : List UInt8}
    (hsign : a.sign? (charBytes (encodeJson a.header.toJson ++ '.' :: encodeJson v)) = some signature) :
    ∃ t : SignedToken b (a.signedText v signature),
      t.key = a.keys.verifier ∧ t.payload = encodeJson v :=
  exists_signedToken_over hcheck hsound (dot_not_mem_encode _) hsign

theorem exists_signedToken_of_tokenOf? (hcheck : b.keys.Check a.keys)
    (hsound : a.keys.verifier.Sound) (htoken : a.tokenOf? c = some token) :
    ∃ t : SignedToken b token, t.key = a.keys.verifier ∧ t.payload = encodeJson c.toJson := by
  obtain ⟨signature, hsign, htoken⟩ := Option.bind_eq_some_iff.mp htoken
  obtain rfl := Option.some.inj htoken
  exact exists_signedToken hcheck hsound hsign

theorem payload?_encodeJson (v : Json) : payload? (encodeJson v) = some v := by
  rw [payload?, decodeChars?_encodeJson, Option.bind_some, Json.read?_chars]

/-- Written claims are read as what they are wherever their names agree. -/
theorem reads_encodeJson (hissuer : Agree b.issuer c.issuer) (haudience : Agree b.audience c.audience)
    (hexpiry : 0 ≤ c.expiresAt.toInt) : b.Reads (encodeJson c.toJson) c := by
  exact ⟨c.toJson, payload?_encodeJson _, Claims.ofJson?_toJson c, _, Registered.ofJson?_claims c,
    decide_eq_true hexpiry, hissuer, haudience⟩

theorem agree_of_own {expected own : Option String} (h : expected = none ∨ expected = own) :
    Agree expected own := by
  rcases h with rfl | rfl
  · simp [Agree]
  · cases expected <;> simp [Agree]

theorem agree_self (name : Option String) : Agree name name :=
  agree_of_own (.inr rfl)

/-- An issued token holds its claims wherever it can be checked and their names agree. -/
theorem holds_of_tokenOf? (hcheck : b.keys.Check a.keys) (hsound : a.keys.verifier.Sound)
    (hshort : a.keys.verifier.Short) (htoken : a.tokenOf? c = some token) (hissuer : Agree b.issuer c.issuer)
    (haudience : Agree b.audience c.audience) (hexpiry : 0 ≤ c.expiresAt.toInt) :
    b.Holds token c := by
  obtain ⟨t, hkey, hpayload⟩ := exists_signedToken_of_tokenOf? hcheck hsound htoken
  refine ⟨t, hkey ▸ hshort, ?_⟩
  rw [hpayload]
  exact reads_encodeJson hissuer haudience hexpiry

/-- Checking an issued token comes to checking its window. -/
theorem verify_tokenOf? (hkeys : a.keys.Consistent) (htoken : a.tokenOf? c = some token)
    (hissuer : c.issuer = a.issuer) (haudience : c.audience = a.audience)
    (hexpiry : 0 ≤ c.expiresAt.toInt) (now : Instant) : a.verify now token =
      if a.keys.Usable then (a.checkWindow now c).map fun _ => c else .error .wrongSignature := by
  have hsound := hkeys.sound_verifier
  obtain ⟨t, hkey, hpayload⟩ := exists_signedToken_of_tokenOf? hkeys.check hsound htoken
  have hreads : a.Reads t.payload c := by
    rw [hpayload]
    exact reads_encodeJson (hissuer ▸ agree_self _) (haudience ▸ agree_self _) hexpiry
  rw [← hkey] at hsound
  split
  · next husable =>
    exact verify_signed t hsound (hkey ▸ Keys.short_verifier_iff.mpr husable) hreads now
  · next husable =>
    exact verify_signed_of_long t hsound (hkey ▸ mt Keys.short_verifier_iff.mp husable) now

theorem tokenOf?_of_sign? {signature : List UInt8}
    (h : a.sign? (charBytes (a.signedPart c)) = some signature) :
    a.tokenOf? c = some (a.signedText c.toJson signature) :=
  Option.bind_eq_some_iff.mpr ⟨signature, h, rfl⟩

theorem exists_tokenOf? {secret : List UInt8} (h : a.keys = .shared secret) (c : Claims) :
    ∃ token, a.tokenOf? c = some token := by
  simp [tokenOf?, sign?, h]

/-- Keys that sign everything are enough to issue. -/
theorem exists_issued (h : ∀ message, ∃ signature, a.sign? message = some signature)
    (now expiry : Instant) (session : String) (subject : Int64) :
    ∃ issued, a.issue now expiry session subject = .ok issued := by
  obtain ⟨signature, hsign⟩ := h (charBytes (a.signedPart (a.claims now expiry session subject)))
  exact ⟨_, by rw [issue, tokenOf?_of_sign? hsign]⟩

end Authority

end SessionGate.Token
