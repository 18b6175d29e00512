import SessionGate.Proofs.Command.KeyPair
import SessionGate.Proofs.Json.Indented
import SessionGate.Proofs.Json.Records
import SessionGate.Proofs.Rsa.Armour
import SessionGate.Proofs.Setup.Keys
import SessionGate.Proofs.Token.Rotation
import SessionGate.Proofs.Token.Selection

/-!
What `keygen` writes can be set up and used: its keys sign, are published as the third file says, and are
checked wherever the second file is listed under their id. Main statement: `keygen_usable`.
-/

namespace SessionGate.Token.Authority

variable {a b : Authority} {start expiry : Instant} {session : String} {subject : Int64}
  {issued : Issued}

/-- An end before the epoch is none. -/
theorem verify_issued_of_negative (hexpiry : expiry? start = some expiry) (hnegative : expiry.nanos < 0)
    (hissue : a.issue start expiry session subject = .ok issued) (hfaithful : a.keys.Faithful)
    (hcheck : b.keys.Check a.keys) (now : Instant) :
    b.verify now issued.token = .error (.invalidToken .missingExpiry) := by
  obtain ⟨htoken, -⟩ := issue_eq_ok hissue
  obtain ⟨signature, hsign, -⟩ := exists_signature htoken
  obtain ⟨hsound, hshort⟩ := verifier_of_faithful hfaithful hsign
  obtain ⟨t, hkey, hpayload⟩ := exists_signedToken_of_tokenOf? hcheck hsound htoken
  have hends : (a.claims start expiry session subject).expiresAt.toInt < 0 := by
    have hcalendar := Instant.inCalendar_iff.mp (Instant.add?_eq_some_iff.mp hexpiry).2
    have hseconds := expiry.seconds_eq
    have hread : (a.claims start expiry session subject).expiresAt.toInt = expiry.seconds :=
      Int64.toInt_ofInt_of_le (by omega) (by omega)
    omega
  have hjudge : b.judge now t.payload = .error (.invalidToken .missingExpiry) := by
    have hfault : b.readPayload (Json.bytes (a.claims start expiry session subject).toJson.chars) =
        .error .missingExpiry := by
      rw [readPayload_eq (Json.read?_chars _) (Claims.ofJson?_toJson _) (Registered.ofJson?_claims _),
        if_neg (by simpa using hends)]
    rw [hpayload, judge, decodeChars?_encodeJson]
    simp only [hfault]
    rfl
  rw [← hkey] at hsound hshort
  rw [verify_eq, (opened_signed t hsound).1 hshort]
  exact hjudge

end SessionGate.Token.Authority

namespace SessionGate.Command

open Host Token

variable {directory id : String} {force : Bool} {s : System} {key : Rsa.PrivateKey}

/-- Keys that were set up from the texts of a pair under an id do everything that keys are for. -/
structure Usable (id publicPem setJson : String) (keys : Keys) : Prop where
  published : ∃ set, (∀ a : Authority, a.keys = keys → a.keySet? = some set) ∧
    Json.decode? KeySet.ofJson? setJson = some set
  issues : ∀ a : Authority, a.keys = keys → ∀ start expiry, Authority.expiry? start = some expiry →
    ∀ session subject, ∃ issued segments header, a.issue start expiry session subject = .ok issued ∧
      Segments.ofText? issued.token = some segments ∧ Authority.readHeader segments.header = .ok header ∧
      header.keyId = some id
  /-- Whoever lists the public text under the id, whatever key it signs with itself, takes the tokens while
  their window is open. -/
  verified : ∀ a b : Authority, a.keys = keys → b.keys = keys ∨
    (∃ pem other retired, Setup.asymmetricKeys pem other retired = .ok b.keys ∧
      (id, publicPem) ∈ retired) →
    Agree b.issuer a.issuer → Agree b.audience a.audience →
    ∀ start expiry session subject issued, Authority.expiry? start = some expiry →
    a.issue start expiry session subject = .ok issued → ∀ now, b.verify now issued.token =
      if expiry.nanos < 0 then .error (.invalidToken .missingExpiry)
      else if now.seconds + b.leeway < start.seconds then .error (.invalidToken .beforeIssue)
      else if start.seconds + 86400 + b.leeway < now.seconds then .error .expired
      else .ok (a.claims start expiry session subject)

/-- The keys that are set up from a new private key alone. -/
def ownKeys (id : String) (key : Rsa.PrivateKey) : Keys :=
  .asymmetric id key { keys := [PublishedKey.ofKey id key.toPublic] }

theorem asymmetricKeys_new (hfresh : key.Fresh) (hid : id ≠ "") :
    Setup.asymmetricKeys (privateText key) id [] = .ok (ownKeys id key) :=
  Setup.asymmetricKeys_eq_ok_iff.mpr ⟨hid, key.hasEarlierOpening_toPem, List.nodup_singleton id, key, [],
    Rsa.PrivateKey.ofPem?_toPem hfresh, .nil, rfl⟩

/-- Keys with the public text among the retired ones find the key by its id. -/
theorem check_of_retired (hfresh : key.Fresh) {pem other : String} {retired : List (String × String)}
    {keys : Keys} (hkeys : Setup.asymmetricKeys pem other retired = .ok keys)
    (hretired : (id, publicText key) ∈ retired) : keys.Check (ownKeys id key) := by
  obtain ⟨-, -, hnodup, signing, entries, -, hspells, rfl⟩ := Setup.asymmetricKeys_eq_ok_iff.mp hkeys
  obtain ⟨entry, hentry, read, hread, rfl⟩ := (Setup.exists_of_spells hspells).1 _ hretired
  have hpem : Rsa.PublicKey.ofPem? (publicText key) = some key.toPublic :=
    Rsa.PublicKey.ofPem?_toPem hfresh.sound.public_sound hfresh.short
  obtain rfl := Option.some.inj (hpem.symm.trans hread)
  refine ⟨.ofKey id key.toPublic, (KeySet.find?_eq_some_iff ?_).mpr ⟨List.mem_cons_of_mem _ hentry, rfl⟩,
    PublishedKey.key?_ofKey ..⟩
  rwa [List.map_cons, Setup.ids_of_spells hspells]

theorem decode?_setText (id : String) (key : Rsa.PrivateKey) :
    Json.decode? KeySet.ofJson? (setText id key) =
      some { keys := [PublishedKey.ofKey id key.toPublic] } := by
  rw [setText, (Json.isText_writeIndented _).decode?_eq, KeySet.ofJson?_toJson]

theorem usable_ownKeys (hfresh : key.Fresh) (id : String) :
    Usable id (publicText key) (setText id key) (ownKeys id key) := by
  have hconsistent : (ownKeys id key).Consistent := ⟨hfresh.sound, List.find?_cons_of_pos (decide_eq_true rfl)⟩
  have hfaithful : (ownKeys id key).Faithful := Keys.faithful_of_usable hconsistent hfresh.short
  refine ⟨⟨_, ?_, decode?_setText id key⟩, ?_, ?_⟩
  · intro a ha
    rw [Authority.keySet?, ha]
    rfl
  · intro a ha start expiry _ session subject
    have hsigns : ∀ message, ∃ signature, a.sign? message = some signature := by
      intro message
      rw [Authority.sign?, ha]
      exact Rsa.PrivateKey.exists_sign? hfresh.sound hfresh.prime1 hfresh.prime2 hfresh.different
        hfresh.room message
    obtain ⟨issued, hissue⟩ := Authority.exists_issued hsigns start expiry session subject
    obtain ⟨signature, -, hsegments⟩ := Authority.exists_signature (Authority.issue_eq_ok hissue).1
    refine ⟨issued, _, _, hissue, hsegments, Authority.readHeader_encodeJson _, ?_⟩
    rw [Authority.header, ha]
    rfl
  · intro a b ha hb hissuer haudience start expiry session subject issued hexpiry hissue now
    have hcheck : b.keys.Check a.keys := by
      rw [ha]
      rcases hb with hb | ⟨pem, other, retired, hkeys, hretired⟩
      · rw [hb]
        exact hconsistent.check
      · exact check_of_retired hfresh hkeys hretired
    rw [← ha] at hfaithful
    split
    · next hnegative =>
      exact Authority.verify_issued_of_negative hexpiry hnegative hissue hfaithful hcheck now
    · next hnonneg =>
      exact Authority.verify_issued hexpiry (Int.not_lt.mp hnonneg) hissue hissuer haudience hfaithful
        hcheck now

/-- A pair that was written can be read, and works under every id but the empty one, which signs nothing. -/
theorem keygen_usable (hkey : s.key = some key) (hfresh : key.Fresh) (hfree : MayWrite directory force s)
    (hdone : (s.run (keygen directory id force).run).1 = .ok ()) : ∃ pem publicPem setJson,
    (s.run (keygen directory id force).run).2.files.read s.here (joinPath directory "private.pem") = .ok pem ∧
    (s.run (keygen directory id force).run).2.files.read s.here (joinPath directory "public.pem") =
      .ok publicPem ∧
    (s.run (keygen directory id force).run).2.files.read s.here (joinPath directory "jwks.json") =
      .ok setJson ∧
    (id = "" → Setup.asymmetricKeys pem id [] = .error (.config .noKeyId)) ∧
    (id ≠ "" → ∃ keys, Setup.asymmetricKeys pem id [] = .ok keys ∧ Usable id publicPem setJson keys) := by
  cases keygen_ending directory id force s with
  | refused hforce hpresent =>
    obtain ⟨path, hpath, hpresent⟩ := hpresent
    exact (hfree.not_present hforce hpath hpresent).elim
  | failed hfree hreason failure hresult => cases hdone.symm.trans hresult
  | written hfree key' hkey' made place hmade hplace hwritten =>
    obtain rfl := Option.some.inj (hkey.symm.trans hkey')
    have hnul := Files.noNul_of_makeDirectories hmade
    rw [hdone] at hwritten
    have hfilled := hwritten.filled
    rw [hwritten.front_eq_self] at hfilled
    refine ⟨privateText key, publicText key, setText id key, ?_, ?_, ?_, ?_, ?_⟩
    · exact read_filled hnul hplace hfilled (by decide) (by simp [pairTexts])
    · exact read_filled hnul hplace hfilled (by decide) (by simp [pairTexts])
    · exact read_filled hnul hplace hfilled (by decide) (by simp [pairTexts])
    · intro hid
      rw [Setup.asymmetricKeys_eq, if_pos hid]
    · intro hid
      exact ⟨_, asymmetricKeys_new hfresh hid, usable_ownKeys hfresh id⟩

namespace Sample

theorem fresh_retired : Token.Sample.retired.Fresh where
  sound := Token.Sample.retired_sound
  prime1 := Token.Sample.retired_primes.1
  prime2 := Token.Sample.retired_primes.2
  different := by decide +kernel
  room := by decide +kernel
  short := by decide +kernel
  secret_lt := by decide +kernel

/-- A key is drawn, and no file is there yet. -/
def fresh : System where
  files := ⟨[]⟩
  here := []
  environment := []
  servers := []
  input := ""
  output := []
  complaints := []
  entropy := []
  key := some Token.Sample.retired

end Sample

/-- A pair in a new directory works under an id that needs to be escaped, and not under the empty one. -/
theorem keygen_usable_sample :
    (∃ pem publicPem setJson keys,
      (Sample.fresh.run (keygen "keys" "a \"key\"" false).run).2.files.read [] "keys/private.pem" = .ok pem ∧
      Setup.asymmetricKeys pem "a \"key\"" [] = .ok keys ∧ Usable "a \"key\"" publicPem setJson keys) ∧
    ∃ pem, (Sample.fresh.run (keygen "." "" true).run).2.files.read [] "./private.pem" = .ok pem ∧
      Setup.asymmetricKeys pem "" [] = .error (.config .noKeyId) := by
  have hkeys : (Sample.fresh.run (keygen "keys" "a \"key\"" false).run).1 = .ok () := by
    refine keygen_eq_ok rfl (by rfl) (by decide) (fun place hplace => ?_) _ _
    obtain rfl : ["keys"] = place := Except.ok.inj hplace
    decide
  have hdot : (Sample.fresh.run (keygen "." "" true).run).1 = .ok () := by
    refine keygen_eq_ok rfl (by rfl) (by decide) (fun place hplace => ?_) _ _
    obtain rfl : [] = place := Except.ok.inj hplace
    decide
  obtain ⟨pem, publicPem, setJson, hpem, -, -, -, hworks⟩ :=
    keygen_usable rfl Sample.fresh_retired (.inr (by decide)) hkeys
  obtain ⟨pem', -, -, hpem', -, -, hempty, -⟩ :=
    keygen_usable rfl Sample.fresh_retired (.inl rfl) hdot
  obtain ⟨keys, hset, husable⟩ := hworks (by decide)
  exact ⟨⟨pem, publicPem, setJson, keys, hpem, hset, husable⟩, pem', hpem', hempty rfl⟩

end SessionGate.Command
