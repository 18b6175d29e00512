import Mathlib.NumberTheory.LucasLehmer
import Mathlib.Tactic.NormNum.Prime
import SessionGate.Proofs.Rsa.Primes
import SessionGate.Proofs.Token.Verdict

/-!
Tokens of one authority at another. Whoever has the secret that signed a token, or publishes the public
half of the key that did under its id, takes the token for what it was issued as while its window is open.
So keys can change hands: a token outlives the authority that issued it wherever its key is still published.
-/

namespace SessionGate.Token

namespace Keys

/-- Keys that publish nothing under the id of the signing key. -/
def Lack : Keys → Keys → String → Prop
  | .asymmetric _ _ published, .asymmetric id _ _, missing => id = missing ∧ published.find? id = none
  | _, _, _ => False

/-- What is signed with a key is accepted under its public half. -/
def Faithful : Keys → Prop
  | .shared _ => True
  | .asymmetric _ signing _ => ∀ message signature, signing.sign? message = some signature →
    signing.toPublic.accepts message signature = true

theorem faithful_of_usable {keys : Keys} (hconsistent : keys.Consistent) (husable : keys.Usable) :
    keys.Faithful := by
  cases keys with
  | shared secret => trivial
  | asymmetric id signing published =>
    intro message signature hsign
    rw [Rsa.accepts_of_sign? hconsistent.1.public_sound hsign]
    exact decide_eq_true husable

end Keys

namespace Authority

variable {a b : Authority} {start expiry : Instant} {session : String} {subject : Int64}
  {issued : Issued}

/-- Faithful keys have signed something, so the key that checks it can work and is short. -/
theorem verifier_of_faithful (hfaithful : a.keys.Faithful) {message signature : List UInt8}
    (hsign : a.sign? message = some signature) : a.keys.verifier.Sound ∧ a.keys.verifier.Short := by
  unfold sign? at hsign
  cases hkeys : a.keys with
  | shared => exact ⟨trivial, trivial⟩
  | asymmetric id signing published =>
    rw [hkeys] at hsign hfaithful
    obtain ⟨hsound, hshort, -⟩ := Rsa.accepts_iff.mp (hfaithful message signature hsign)
    exact ⟨hsound, hshort⟩

/-- An issued token at another authority comes down to its window, which opens as it is issued. -/
theorem verify_issued (hexpiry : expiry? start = some expiry) (hnonneg : 0 ≤ expiry.nanos)
    (hissue : a.issue start expiry session subject = .ok issued)
    (hissuer : Agree b.issuer a.issuer) (haudience : Agree b.audience a.audience)
    (hfaithful : a.keys.Faithful) (hcheck : b.keys.Check a.keys) (now : Instant) :
    b.verify now issued.token =
      if now.seconds + b.leeway < start.seconds then .error (.invalidToken .beforeIssue)
      else if start.seconds + 86400 + b.leeway < now.seconds then .error .expired
      else .ok (a.claims start expiry session subject) := by
  obtain ⟨htoken, -⟩ := issue_eq_ok hissue
  obtain ⟨hissued, hends⟩ := toInt_claims (a := a) hexpiry hnonneg session subject
  have hlast := toInt_lastSecond_claims (a := a) b hexpiry hnonneg session subject
  obtain ⟨signature, hsign, -⟩ := exists_signature htoken
  obtain ⟨hsound, hshort⟩ := verifier_of_faithful hfaithful hsign
  obtain ⟨t, hkey, hpayload⟩ := exists_signedToken_of_tokenOf? hcheck hsound htoken
  have hlater : 0 ≤ start.seconds + 86400 := by
    have hnanos := expiry_nanos hexpiry
    rw [Instant.seconds_eq]
    omega
  have hreads : b.Reads t.payload (a.claims start expiry session subject) := by
    rw [hpayload]
    exact reads_encodeJson hissuer haudience (hends ▸ hlater)
  rw [← hkey] at hsound hshort
  rw [verify_signed t hsound hshort hreads, checkWindow, hissued, hlast]
  split
  · rfl
  · split <;> rfl

/-- A token whose key is not published is refused for that. -/
theorem verify_of_lack (hissue : a.issue start expiry session subject = .ok issued) {id : String}
    (hlack : b.keys.Lack a.keys id) (now : Instant) :
    b.verify now issued.token = .error (.invalidToken (.unknownKey id)) := by
  obtain ⟨htoken, -⟩ := issue_eq_ok hissue
  obtain ⟨signature, -, hsegments⟩ := exists_signature htoken
  cases ha : a.keys with
  | shared => cases hb : b.keys <;> simp [ha, hb, Keys.Lack] at hlack
  | asymmetric id' signing own =>
    cases hb : b.keys with
    | shared => simp [ha, hb, Keys.Lack] at hlack
    | asymmetric active other published =>
      rw [ha, hb] at hlack
      obtain ⟨rfl, hfind⟩ := hlack
      have halgorithm : a.header.algorithm = b.algorithm := by
        simp [header, algorithm, ha, hb]
      have hchecker : b.checker a.header = .error (.unknownKey id') := by
        simp [checker, header, ha, hb, hfind]
      rw [verify_eq, opened, hsegments]
      simp only [readHeader_encodeJson, halgorithm, if_true, hchecker]
      rfl

/-- A token that was issued at one time, as another authority takes it at any other. -/
structure RoundTrip (a b : Authority) (start : Instant) (session : String) (subject : Int64)
    (issued : Issued) : Prop where
  session_eq : issued.session = session
  issuedAt_eq : issued.issuedAt = .ofSeconds start.seconds
  expiresAt_eq : issued.expiresAt = .ofSeconds (start.seconds + 86400)
  early : b.keys.Check a.keys → ∀ now : Instant, now.seconds < start.seconds - b.leeway →
    b.verify now issued.token = .error (.invalidToken .beforeIssue)
  accepted : b.keys.Check a.keys → ∀ now : Instant, start.seconds - b.leeway ≤ now.seconds →
    now.seconds ≤ start.seconds + 86400 + b.leeway → ∃ c, b.verify now issued.token = .ok c ∧
      c.subject = subject ∧ c.session = session ∧ c.issuedAt.toInt = start.seconds ∧
      c.expiresAt.toInt = start.seconds + 86400 ∧ c.issuer = a.issuer ∧ c.audience = a.audience ∧
      c.subjectText = some (Text.writeInt64 subject)
  expired : b.keys.Check a.keys → ∀ now : Instant,
    start.seconds + 86400 + b.leeway < now.seconds → b.verify now issued.token = .error .expired
  unknown : ∀ id, b.keys.Lack a.keys id →
    ∀ now, b.verify now issued.token = .error (.invalidToken (.unknownKey id))

theorem roundTrip (hexpiry : expiry? start = some expiry) (hnonneg : 0 ≤ expiry.nanos)
    (hissue : a.issue start expiry session subject = .ok issued)
    (hissuer : b.issuer = none ∨ b.issuer = a.issuer)
    (haudience : b.audience = none ∨ b.audience = a.audience) (hleeway : 0 ≤ b.leeway)
    (hfaithful : a.keys.Faithful) : RoundTrip a b start session subject issued where
  session_eq := (issue_eq_ok hissue).2.1
  issuedAt_eq := (issue_eq_ok hissue).2.2.1
  expiresAt_eq := by
    have hday : expiry.seconds = start.seconds + 86400 := by
      have hnanos := expiry_nanos hexpiry
      rw [Instant.seconds_eq, Instant.seconds_eq]
      omega
    rw [(issue_eq_ok hissue).2.2.2, Instant.floor, hday]
  early hcheck now h := by
    rw [verify_issued hexpiry hnonneg hissue (agree_of_own hissuer) (agree_of_own haudience)
      hfaithful hcheck, if_pos (by omega)]
  accepted hcheck now hopen hclose := by
    obtain ⟨hissued, hends⟩ := toInt_claims (a := a) hexpiry hnonneg session subject
    refine ⟨a.claims start expiry session subject, ?_, rfl, rfl, hissued, hends, rfl, rfl, rfl⟩
    rw [verify_issued hexpiry hnonneg hissue (agree_of_own hissuer) (agree_of_own haudience)
      hfaithful hcheck, if_neg (by omega), if_neg (by omega)]
  expired hcheck now h := by
    rw [verify_issued hexpiry hnonneg hissue (agree_of_own hissuer) (agree_of_own haudience)
      hfaithful hcheck, if_neg (by omega), if_pos h]
  unknown id hlack now := verify_of_lack hissue hlack now

end Authority

namespace Sample

/-- A key of 524 bits, one of whose factors is the thirteenth Mersenne prime. -/
def retired : Rsa.PrivateKey where
  modulus := 7 * (2 ^ 521 - 1)
  exponent := 257
  secret := (193 * (2 ^ 521 - 2) + 1) / 257
  prime1 := 7
  prime2 := 2 ^ 521 - 1

theorem retired_sound : retired.Sound := by
  decide +kernel

theorem retired_primes : retired.prime1.Prime ∧ retired.prime2.Prime := by
  have hseven : Nat.Prime 7 := by
    norm_num
  exact ⟨hseven, lucas_lehmer_sufficiency 521 (by norm_num) (by norm_num)⟩

theorem retired_signs (message : List UInt8) : ∃ signature, retired.sign? message = some signature :=
  Rsa.PrivateKey.exists_sign? retired_sound retired_primes.1 retired_primes.2 (by decide +kernel)
    (by decide +kernel) message

/-- The authority before its key was changed. -/
def before : Authority where
  keys := .asymmetric "old" retired { keys := [.ofKey "old" retired.toPublic] }
  issuer := some "the \"gate\""
  audience := none
  skew := ⟨0, Nat.zero_le _⟩

/-- The same authority with a new key, which still publishes the old one. -/
def after : Authority where
  keys := .asymmetric "new" ⟨35, 5, 5, 5, 7⟩
    { keys := [.ofKey "new" ⟨35, 5⟩, .ofKey "old" retired.toPublic] }
  issuer := some "the \"gate\""
  audience := none
  skew := sharing.skew

theorem faithful_before : before.keys.Faithful := by
  have hfirst : before.keys.Consistent :=
    ⟨retired_sound, List.find?_cons_of_pos (decide_eq_true rfl)⟩
  exact Keys.faithful_of_usable hfirst (by decide +kernel)

theorem check_after : after.keys.Check before.keys := by
  refine ⟨.ofKey "old" retired.toPublic, ?_, PublishedKey.key?_ofKey ..⟩
  rw [KeySet.find?, List.find?_cons_of_neg (by decide)]
  exact List.find?_cons_of_pos (decide_eq_true rfl)

end Sample

theorem Authority.roundTrip_sample : ∃ issued,
    Sample.before.issue ⟨-500000000⟩ ⟨86399500000000⟩ "first" (-7) = .ok issued ∧
      (∃ c, Sample.after.verify ⟨86404999999999⟩ issued.token = .ok c ∧ c.subject = -7 ∧
        c.issuer = some "the \"gate\"") ∧
      Sample.after.verify ⟨86405000000000⟩ issued.token = .error .expired ∧
      Sample.signing.verify ⟨0⟩ issued.token = .error (.invalidToken (.unknownKey "old")) := by
  have hexpiry : expiry? ⟨-500000000⟩ = some ⟨86399500000000⟩ := by
    decide +kernel
  obtain ⟨issued, hissue⟩ := exists_issued (a := Sample.before) Sample.retired_signs
    ⟨-500000000⟩ ⟨86399500000000⟩ "first" (-7)
  have hafter : RoundTrip Sample.before Sample.after ⟨-500000000⟩ "first" (-7) issued :=
    roundTrip hexpiry (by decide) hissue (.inr rfl) (.inr rfl) (by decide) Sample.faithful_before
  have hsigning : RoundTrip Sample.before Sample.signing ⟨-500000000⟩ "first" (-7) issued :=
    roundTrip hexpiry (by decide) hissue (.inl rfl) (.inl rfl) (by decide) Sample.faithful_before
  refine ⟨issued, hissue, ?_, ?_, ?_⟩
  · obtain ⟨c, hverify, hsubject, -, -, -, hissuer, -⟩ :=
      hafter.accepted Sample.check_after ⟨86404999999999⟩ (by decide) (by decide)
    exact ⟨c, hverify, hsubject, hissuer⟩
  · exact hafter.expired Sample.check_after ⟨86405000000000⟩ (by decide)
  · exact hsigning.unknown "old" ⟨rfl, rfl⟩ ⟨0⟩

end SessionGate.Token
