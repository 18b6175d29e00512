import SessionGate.Proofs.Token.Verdict

/-!
The issuer and the audience of a token. They are compared with an authority's own only where a payload
gives them, as it is read for the registered names: a payload without them passes everywhere, and one that
is written as an array has its issuer taken for the audience.
-/

namespace SessionGate

namespace Json

theorem map_only?_of_mapM {members : List (Option String × Json)} {fields : List (List String)}
    {values : List (Option Json)} (h : fields.mapM (only? · members) = some values) :
    fields.map (only? · members) = values.map some := by
  induction fields generalizing values with
  | nil =>
    obtain rfl := Option.some.inj h
    rfl
  | cons names fields ih =>
    rw [List.mapM_cons] at h
    obtain ⟨value, hvalue, h⟩ := Option.bind_eq_some_iff.mp h
    obtain ⟨rest, hrest, h⟩ := Option.bind_eq_some_iff.mp h
    obtain rfl := Option.some.inj h
    rw [List.map_cons, List.map_cons, hvalue, ih hrest]

/-- The fields of an object are the members under their names. -/
theorem map_only?_of_fields? {members : List (Option String × Json)} {fields : List (List String)}
    {values : List (Option Json)} (h : (object members).fields? fields = some values) :
    fields.map (only? · members) = values.map some :=
  map_only?_of_mapM (Option.ite_none_right_eq_some.mp h).2

/-- A name that may be left out is the same whether its absence is a fault or not. -/
theorem bind_text?_of_optional? {v : Option Json} {text : Option String}
    (h : optional? text? v = some text) : v.bind text? = text := by
  cases v with
  | none => exact Option.some.inj h
  | some v =>
    cases v with
    | null => exact Option.some.inj h
    | string found =>
      obtain ⟨read, hread, rfl⟩ := Option.map_eq_some_iff.mp h
      exact hread
    | bool | integer | decimal | array | object => simp [optional?, text?] at h

theorem text?_of_int64? {v : Json} {n : Int64} (h : v.int64? = some n) : v.text? = none := by
  cases v <;> first | rfl | cases h

end Json

namespace Token

/-- Claims that were read, with the fields that they were read from. -/
theorem Claims.ofJson?_eq_some {v : Json} {c : Claims} (h : ofJson? v = some c) :
    ∃ subject session issuedAt expiresAt issuer audience subjectText,
      v.fields? fieldNames = some [some subject, some session, some issuedAt, some expiresAt, issuer,
        audience, subjectText] ∧
      expiresAt.int64? = some c.expiresAt ∧ Json.optional? Json.text? issuer = some c.issuer ∧
      Json.optional? Json.text? audience = some c.audience := by
  unfold ofJson? at h
  split at h
  · next subject session issuedAt expiresAt issuer audience subjectText hfields =>
    simp only [Option.bind_eq_bind, Option.bind_eq_some_iff] at h
    obtain ⟨_, -, _, -, _, -, _, hexpires, _, hissuer, _, haudience, _, -, h⟩ := h
    obtain rfl := Option.some.inj h
    exact ⟨_, _, _, _, _, _, _, hfields, hexpires, hissuer, haudience⟩
  · cases h

/-- The issuer and the audience that claims are compared by. -/
def Claims.compared (c : Claims) : Json → Option String × Option String
  | .array _ => (none, c.issuer)
  | _ => (c.issuer, c.audience)

theorem Registered.names_eq {v : Json} {c : Claims} {r : Registered} (hclaims : Claims.ofJson? v = some c)
    (hnames : ofJson? v = some r) : (r.issuer, r.audience) = c.compared v := by
  obtain ⟨subject, session, issuedAt, expiresAt, issuer, audience, subjectText, hfields, hexpires,
    hissuer, haudience⟩ := Claims.ofJson?_eq_some hclaims
  cases v with
  | object members =>
    obtain ⟨fields, hread, hfound⟩ := Option.bind_eq_some_iff.mp hnames
    have hclaimed := Json.map_only?_of_fields? hfields
    have hregistered := Json.map_only?_of_fields? hread
    unfold ofFields? at hfound
    split at hfound
    · next expiry start issuer' audience' =>
      simp only [Claims.fieldNames, fieldNames, List.map_cons, List.cons.injEq] at hclaimed hregistered
      obtain ⟨-, -, -, -, hiss, haud, -⟩ := hclaimed
      obtain ⟨-, -, -, hiss', haud', -⟩ := hregistered
      obtain ⟨-, hfound⟩ := Option.ite_none_right_eq_some.mp hfound
      obtain rfl := Option.some.inj hfound
      obtain rfl := Option.some.inj (hiss.symm.trans hiss')
      obtain rfl := Option.some.inj (haud.symm.trans haud')
      exact Prod.ext (Json.bind_text?_of_optional? hissuer) (Json.bind_text?_of_optional? haudience)
    · cases hfound
  | array items =>
    obtain ⟨hlength, hfound⟩ := Option.ite_none_right_eq_some.mp hnames
    match items, hlength with
    | [first, second, third, fourth, fifth], _ =>
      have hitems : (Json.array [first, second, third, fourth, fifth]).fields? Claims.fieldNames =
          some [some first, some second, some third, some fourth, some fifth, none, none] := rfl
      rw [hitems] at hfields
      simp only [Option.some.injEq, List.cons.injEq, and_true] at hfields
      obtain ⟨-, -, -, rfl, rfl, rfl, rfl⟩ := hfields
      obtain ⟨-, hfound⟩ := Option.ite_none_right_eq_some.mp hfound
      obtain rfl := Option.some.inj hfound
      exact Prod.ext (Json.text?_of_int64? hexpires) (Json.bind_text?_of_optional? hissuer)
  | null | bool | integer | decimal | string => cases hfields

namespace Authority

variable {a : Authority} {token : String}

/-- The names that claims are compared by are left out or an authority's own. -/
def NamesAgree (a : Authority) (v : Json) (c : Claims) : Prop :=
  Agree a.issuer (c.compared v).1 ∧ Agree a.audience (c.compared v).2

instance (a : Authority) (v : Json) (c : Claims) : Decidable (a.NamesAgree v c) :=
  inferInstanceAs (Decidable (_ ∧ _))

theorem takes_iff {v : Json} {c : Claims} : a.Takes v c ↔ Claims.ofJson? v = some c ∧
    (∃ r, Registered.ofJson? v = some r ∧ r.hasExpiry = true) ∧ a.NamesAgree v c := by
  constructor
  · rintro ⟨hclaims, r, hnames, hexpiry, hagree⟩
    refine ⟨hclaims, ⟨r, hnames, hexpiry⟩, ?_⟩
    rwa [NamesAgree, ← Registered.names_eq hclaims hnames]
  · rintro ⟨hclaims, ⟨r, hnames, hexpiry⟩, hagree⟩
    rw [NamesAgree, ← Registered.names_eq hclaims hnames] at hagree
    exact ⟨hclaims, r, hnames, hexpiry, hagree⟩

/-- A payload that was decoded is refused for its contents, and not for its signature. -/
theorem judge_of_not_takes {payload : List Char} {v : Json} (hpayload : payload? payload = some v)
    (h : ∀ c, ¬ a.Takes v c) :
    ∃ fault, ∀ now, a.judge now payload = .error (.invalidToken fault) := by
  obtain ⟨bytes, hbytes, hread⟩ := Option.bind_eq_some_iff.mp hpayload
  cases hresult : a.readPayload bytes with
  | ok c =>
    obtain ⟨v', hread', htakes⟩ := readPayload_eq_ok_iff.mp hresult
    obtain rfl := Option.some.inj (hread.symm.trans hread')
    exact absurd htakes (h c)
  | error fault =>
    refine ⟨fault, ?_⟩
    intro now
    rw [judge, hbytes]
    simp only [hresult]
    rfl

theorem namesAgree_of_object {v : Json} {c : Claims} (hobject : ∀ items, v ≠ .array items)
    (h : a.NamesAgree v c) : Agree a.issuer c.issuer ∧ Agree a.audience c.audience := by
  cases v with
  | array items => exact absurd rfl (hobject items)
  | null | bool | integer | decimal | string | object => exact h

/-- What an authority makes of the names in a token. Claims that it accepts have its own names or none,
as far as they are compared, which is in full unless the payload is an array; claims with other names are
refused; and names that agree leave only the window of time to be checked. -/
structure NameCheck (a : Authority) (token : String) : Prop where
  accepted : ∀ now c, a.verify now token = .ok c → ∃ (t : SignedToken a token) (v : Json),
    payload? t.payload = some v ∧ Claims.ofJson? v = some c ∧ a.NamesAgree v c
  own : ∀ now c, a.verify now token = .ok c →
    (∃ (t : SignedToken a token) (items : List Json), payload? t.payload = some (.array items)) ∨
      Agree a.issuer c.issuer ∧ Agree a.audience c.audience
  refused : ∀ (t : SignedToken a token) v c, t.key.Short → payload? t.payload = some v →
    Claims.ofJson? v = some c → ¬ a.NamesAgree v c →
    ∃ fault, ∀ now, a.verify now token = .error (.invalidToken fault)
  passed : ∀ (t : SignedToken a token) v c r, t.key.Short → payload? t.payload = some v →
    Claims.ofJson? v = some c → Registered.ofJson? v = some r → r.hasExpiry = true →
    a.NamesAgree v c → ∀ now, a.verify now token = (a.checkWindow now c).map fun _ => c

theorem namesAgree_of_verify (hsound : a.keys.Sound) {now : Instant} {c : Claims}
    (h : a.verify now token = .ok c) : ∃ (t : SignedToken a token) (v : Json),
      payload? t.payload = some v ∧ Claims.ofJson? v = some c ∧ a.NamesAgree v c := by
  obtain ⟨⟨t, -, v, hpayload, htakes⟩, -⟩ := (accepted_iff hsound).mp h
  obtain ⟨hclaims, -, hagree⟩ := takes_iff.mp htakes
  exact ⟨t, v, hpayload, hclaims, hagree⟩

theorem nameCheck (hsound : a.keys.Sound) (token : String) : NameCheck a token where
  accepted now c h := namesAgree_of_verify hsound h
  own now c h := by
    obtain ⟨t, v, hpayload, -, hagree⟩ := namesAgree_of_verify hsound h
    by_cases harray : ∃ items, v = .array items
    · obtain ⟨items, rfl⟩ := harray
      exact .inl ⟨t, items, hpayload⟩
    · exact .inr (namesAgree_of_object (not_exists.mp harray) hagree)
  refused t v c hshort hpayload hclaims hdiffer := by
    have hnot : ∀ c', ¬ a.Takes v c' := by
      intro c' htakes
      obtain ⟨hclaims', -, hagree⟩ := takes_iff.mp htakes
      obtain rfl := Option.some.inj (hclaims.symm.trans hclaims')
      exact hdiffer hagree
    obtain ⟨fault, hjudge⟩ := judge_of_not_takes hpayload hnot
    refine ⟨fault, ?_⟩
    intro now
    rw [verify_eq, (opened_signed t (hsound.select? t.key_eq)).1 hshort]
    exact hjudge now
  passed t v c r hshort hpayload hclaims hnames hexpiry hagree now := by
    have htakes : a.Takes v c := takes_iff.mpr ⟨hclaims, ⟨r, hnames, hexpiry⟩, hagree⟩
    exact verify_of_holds hsound ⟨t, hshort, v, hpayload, htakes⟩ now

end Authority

namespace Sample

def claimsFrom (issuer : Option String) : Claims := { claims with issuer, subjectText := none }

/-- The claims of `claimsFrom` as an array of their fields. -/
def listed (issuer : String) : Json :=
  .array [.integer 7, .text "first", .integer 0, .integer 86400, .text issuer]

theorem exists_signedToken (v : Json) :
    ∃ (token : String) (t : SignedToken sharing token), t.key.Short ∧ payload? t.payload = some v := by
  have hsign : ∀ message, sharing.sign? message =
      some (Hmac.code (List.replicate 32 7) message) := fun _ => rfl
  obtain ⟨t, hkey, hpayload⟩ := Authority.exists_signedToken (v := v) check_sharing
    sound_sharing (hsign _)
  refine ⟨_, t, ?_, ?_⟩
  · rw [hkey]
    trivial
  · rw [hpayload, Authority.payload?_encodeJson]

end Sample

/-- A token without names passes, one with another issuer does not, and the same claims pass once they
are written as an array. -/
theorem Authority.nameCheck_sample : ∃ unnamed foreign listed,
    Sample.sharing.verify ⟨0⟩ unnamed = .ok (Sample.claimsFrom none) ∧
      (∃ fault, ∀ now, Sample.sharing.verify now foreign = .error (.invalidToken fault)) ∧
      Sample.sharing.verify ⟨0⟩ listed = .ok (Sample.claimsFrom (some "elsewhere")) := by
  have hsound : Sample.sharing.keys.Sound := trivial
  obtain ⟨unnamed, t, hshort, hpayload⟩ := Sample.exists_signedToken (Sample.claimsFrom none).toJson
  obtain ⟨foreign, t', hshort', hpayload'⟩ :=
    Sample.exists_signedToken (Sample.claimsFrom (some "elsewhere")).toJson
  obtain ⟨listed, t'', hshort'', hpayload''⟩ := Sample.exists_signedToken (Sample.listed "elsewhere")
  refine ⟨unnamed, foreign, listed, ?_, ?_, ?_⟩
  · rw [(nameCheck hsound unnamed).passed t _ (Sample.claimsFrom none) _ hshort hpayload
      (Claims.ofJson?_toJson _) (Registered.ofJson?_claims _) (by decide) (by decide)]
    rfl
  · exact (nameCheck hsound foreign).refused t' _ (Sample.claimsFrom (some "elsewhere")) hshort'
      hpayload' (Claims.ofJson?_toJson _) (by decide)
  · rw [(nameCheck hsound listed).passed t'' _ (Sample.claimsFrom (some "elsewhere")) _ hshort''
      hpayload'' rfl rfl (by decide) (by decide)]
    rfl

end Token

end SessionGate
