import SessionGate.Proofs.Json.RoundTrip
import SessionGate.Token.Authority

/-!
Headers and claims read back from the values they are written as, and so do the names that a payload
is checked for.
-/

namespace SessionGate

theorem Json.int64?_integer (n : Int64) : Json.int64? (.integer n.toInt) = some n := by
  rw [int64?, if_pos ⟨Int64.le_toInt n, Int64.toInt_lt n⟩, Int64.ofInt_toInt]

namespace Token

theorem Claims.ofJson?_toJson (c : Claims) : Claims.ofJson? c.toJson = some c := by
  have hfields : c.toJson.fields? fieldNames = some [some (.integer c.subject.toInt),
      some (.text c.session), some (.integer c.issuedAt.toInt), some (.integer c.expiresAt.toInt),
      c.issuer.map .text, c.audience.map .text, c.subjectText.map .text] := by
    obtain ⟨subject, session, issuedAt, expiresAt, issuer, audience, subjectText⟩ := c
    cases issuer <;> cases audience <;> cases subjectText <;> rfl
  have hoptional : ∀ text : Option String,
      Json.optional? Json.text? (text.map .text) = some text := by
    intro text
    cases text <;> rfl
  have htext : ∀ text, Json.text? (.text text) = some text := fun _ => rfl
  rw [ofJson?, hfields]
  simp only [Json.int64?_integer, htext, hoptional]
  rfl

theorem Registered.ofJson?_claims (c : Claims) : Registered.ofJson? c.toJson =
    some { hasExpiry := 0 ≤ c.expiresAt.toInt, issuer := c.issuer, audience := c.audience } := by
  have hfields : c.toJson.fields? fieldNames = some [some (.integer c.expiresAt.toInt), none,
      c.subjectText.map .text, c.issuer.map .text, c.audience.map .text] := by
    obtain ⟨subject, session, issuedAt, expiresAt, issuer, audience, subjectText⟩ := c
    cases issuer <;> cases audience <;> cases subjectText <;> rfl
  have hbind : ∀ text : Option String, (text.map Json.text).bind Json.text? = text := by
    intro text
    cases text <;> rfl
  change (c.toJson.fields? fieldNames).bind ofFields? = _
  have hstart : isStart none = true := rfl
  rw [hfields, Option.bind_some, ofFields?, if_pos hstart, hbind, hbind]
  rfl

def Header.members (h : Header) : List (Option String × Json) :=
  [Json.member "typ" (.text "JWT"), Json.member "alg" (.text h.algorithm.name)]
    ++ (h.keyId.map fun id => Json.member "kid" (.text id)).toList

theorem Header.known_members (h : Header) : (isField textNames isOptionalText h.members &&
    isField listNames isOptionalTexts h.members && isField ["jwk"] isOptionalKey h.members &&
    h.members.all fun (name, v) => (name.any knownNames.contains) || v.text?.isSome) = true := by
  obtain ⟨algorithm, keyId⟩ := h
  cases keyId <;> rfl

theorem Header.ofMembers?_members (h : Header) : ofMembers? h.members = some h := by
  have hname := Algorithm.ofName?_name h.algorithm
  have halg : Json.only? ["alg"] h.members = some (some (.text h.algorithm.name)) := by
    obtain ⟨algorithm, keyId⟩ := h
    cases keyId <;> rfl
  have hword : Json.word? (.text h.algorithm.name) = some h.algorithm.name := rfl
  have hkid : Json.only? ["kid"] h.members = some (h.keyId.map .text) := by
    obtain ⟨algorithm, keyId⟩ := h
    cases keyId <;> rfl
  have hid : Json.optional? Json.text? (h.keyId.map .text) = some h.keyId := by
    obtain ⟨algorithm, keyId⟩ := h
    cases keyId <;> rfl
  have hknown := h.known_members
  unfold ofMembers?
  simp only [halg, hkid, Option.bind_eq_bind, Option.bind_some, hword, hid, hknown, hname, if_true]

theorem Header.ofJson?_toJson (h : Header) : Header.ofJson? h.toJson = some h := by
  have hplain :
      (h.toJson.isText && h.toJson.isFinite && decide (h.toJson.depth ≤ deepest)) = true := by
    obtain ⟨algorithm, keyId⟩ := h
    cases keyId <;> rfl
  change (if _ then _ else none) = _
  rw [if_pos (by simpa using hplain)]
  exact h.ofMembers?_members

end Token

end SessionGate
