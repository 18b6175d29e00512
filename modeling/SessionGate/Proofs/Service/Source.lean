import SessionGate.Proofs.Service.Orderly
import SessionGate.Proofs.Service.Stack

/-!
Where the session of a request comes from. A request has one source, the assertion of a trusted gateway
or else its authorization header, and a gate looks at no other (`Deployment.authorize_congr`). Main
statement: `Deployment.oneSource`, with what follows for requests that carry both, one or neither.
-/

namespace SessionGate

/-- What decides whom a request acts as. -/
inductive Source
  | assertion (value : String)
  | authorization (value : Option String)
deriving DecidableEq, Repr

namespace Deployment

variable {d : Deployment} {headers other : Http.Headers} {name value : String}

def source (d : Deployment) (headers : Http.Headers) : Source :=
  match d.assertion? headers with
  | some value => .assertion value
  | none => .authorization (Http.header? headers "authorization")

theorem assertion?_of_untrusted (h : d.gatewayHeader = none) (headers : Http.Headers) :
    d.assertion? headers = none := by
  rw [assertion?, h]
  rfl

theorem assertion?_of_trusted (h : d.gatewayHeader = some name) (headers : Http.Headers) :
    d.assertion? headers =
      (Http.header? headers name).filter fun value => !Assertion.isBlank value := by
  rw [assertion?, h]
  change ((Http.header? headers name).bind fun value =>
    if Assertion.isBlank value then none else some value) = _
  cases Http.header? headers name with
  | none => rfl
  | some value => cases hblank : Assertion.isBlank value <;> simp [Option.filter, hblank]

theorem source_of_untrusted (h : d.gatewayHeader = none) (headers : Http.Headers) :
    d.source headers = .authorization (Http.header? headers "authorization") := by
  rw [source, assertion?_of_untrusted h]

theorem source_of_asserted (h : d.gatewayHeader = some name)
    (hvalue : Http.header? headers name = some value) (hblank : Assertion.isBlank value = false) :
    d.source headers = .assertion value := by
  rw [source, assertion?_of_trusted h, hvalue]
  simp [Option.filter, hblank]

theorem source_of_unasserted (h : d.gatewayHeader = some name)
    (hblank : ∀ value ∈ Http.header? headers name, Assertion.isBlank value) :
    d.source headers = .authorization (Http.header? headers "authorization") := by
  have hnone : d.assertion? headers = none := by
    rw [assertion?_of_trusted h, Option.filter_eq_none_iff]
    intro value hvalue
    simp [hblank value hvalue]
  rw [source, hnone]

theorem bearerToken_congr
    (h : Http.header? headers "authorization" = Http.header? other "authorization") :
    bearerToken headers = bearerToken other := by
  rw [bearerToken, bearerToken, h]

/-- Deployments that differ in the header that they trust do the same with the same source. -/
theorem authorize_congr {trusted trusted' : Option String}
    (h : { d with gatewayHeader := trusted }.source headers =
      { d with gatewayHeader := trusted' }.source other) :
    { d with gatewayHeader := trusted }.authorize headers =
      { d with gatewayHeader := trusted' }.authorize other := by
  unfold source at h
  unfold authorize claimedSession
  cases hvalue : { d with gatewayHeader := trusted }.assertion? headers with
  | some value =>
    cases hvalue' : { d with gatewayHeader := trusted' }.assertion? other with
    | some value' =>
      rw [hvalue, hvalue'] at h
      obtain rfl := Source.assertion.inj h
      rfl
    | none =>
      rw [hvalue, hvalue'] at h
      cases h
  | none =>
    cases hvalue' : { d with gatewayHeader := trusted' }.assertion? other with
    | some value' =>
      rw [hvalue, hvalue'] at h
      cases h
    | none =>
      rw [hvalue, hvalue'] at h
      dsimp only
      rw [bearerToken_congr (Source.authorization.inj h)]
      rfl

theorem authorize_of_assertion (h : d.source headers = .assertion value) :
    d.authorize headers = match Assertion.read value with
      | .ok session => d.resolve session
      | .error fault => throw (.malformedAssertion fault) := by
  have hvalue : d.assertion? headers = some value := by
    unfold source at h
    cases hassertion : d.assertion? headers <;> rw [hassertion] at h <;> cases h
    rfl
  rw [authorize, claimedSession, hvalue]
  dsimp only
  cases Assertion.read value <;> rfl

/-- One source decides a gate. Requests with the same source are identified by the same program, and so
alike in every state of the service. -/
structure OneSource (d : Deployment) : Prop where
  bearer : d.gatewayHeader = none → ∀ headers other,
    Http.header? headers "authorization" = Http.header? other "authorization" →
      d.authorize headers = d.authorize other
  asserted : ∀ name, d.gatewayHeader = some name → ∀ value, Assertion.isBlank value = false →
    ∀ headers other, Http.header? headers name = some value →
      Http.header? other name = some value → d.authorize headers = d.authorize other
  /-- With an assertion, the clock is not asked and no authority makes a difference. -/
  unchecked : ∀ name, d.gatewayHeader = some name → ∀ headers value,
    Http.header? headers name = some value → Assertion.isBlank value = false →
      ((d.authorize headers).run.Only fun op => op.IsRead ∨ op.IsNote) ∧
      ∀ authority, { d with authority }.authorize headers = d.authorize headers
  malformed : ∀ name, d.gatewayHeader = some name → ∀ headers value,
    Http.header? headers name = some value → Assertion.isBlank value = false → ∀ fault,
      Assertion.read value = .error fault →
        d.authorize headers = throw (.malformedAssertion fault)
  unasserted : ∀ name, d.gatewayHeader = some name → ∀ headers,
    (∀ value ∈ Http.header? headers name, Assertion.isBlank value) →
      d.authorize headers = { d with gatewayHeader := none }.authorize headers

theorem oneSource (d : Deployment) : d.OneSource where
  bearer h headers other hsame := by
    apply authorize_congr (d := d)
    rw [source_of_untrusted h, source_of_untrusted h, hsame]
  asserted name h value hblank headers other hheaders hother := by
    apply authorize_congr (d := d)
    rw [source_of_asserted h hheaders hblank, source_of_asserted h hother hblank]
  unchecked name h headers value hvalue hblank := by
    have hsource := source_of_asserted h hvalue hblank
    constructor
    · rw [authorize_of_assertion hsource]
      cases Assertion.read value with
      | error fault => trivial
      | ok session => exact d.only_resolve (fun _ => .inl trivial) (fun _ => .inr trivial) session
    · intro authority
      have hsource' : { d with authority }.source headers = .assertion value := hsource
      rw [authorize_of_assertion hsource, authorize_of_assertion hsource']
      rfl
  malformed name h headers value hvalue hblank fault hfault := by
    rw [authorize_of_assertion (source_of_asserted h hvalue hblank), hfault]
  unasserted name h headers hblank := by
    apply authorize_congr (d := d)
    rw [source_of_unasserted h hblank, source_of_untrusted rfl]

end Deployment

namespace Sample

def bearing : Http.Headers := [("authorization", "Bearer abc")]

end Sample

/-- A client that adds a token of its own to what the gateway asserts gains nothing by it. -/
theorem Deployment.oneSource_sample :
    Sample.behindGateway.authorize (Sample.bearing ++ Sample.asserting) =
        Sample.behindGateway.authorize Sample.asserting ∧
      Sample.behindGateway.authorize (("x-user", "%") :: Sample.bearing) =
        throw (.malformedAssertion .base64) ∧
      Sample.behindGateway.authorize (("x-user", " ") :: Sample.bearing) =
        Sample.deployment.authorize (("x-user", "first") :: Sample.bearing) := by
  have hone := Deployment.oneSource Sample.behindGateway
  have hfirst : Http.header? (Sample.bearing ++ Sample.asserting) "x-user" =
      Http.header? Sample.asserting "x-user" := rfl
  have hasserting : ∃ value, Http.header? Sample.asserting "x-user" = some value ∧
      Assertion.isBlank value = false := by
    with_unfolding_all exact ⟨_, rfl, rfl⟩
  obtain ⟨value, hvalue, hblank⟩ := hasserting
  refine ⟨hone.asserted "x-user" rfl value hblank _ _ (hfirst.trans hvalue) hvalue, ?_, ?_⟩
  · exact hone.malformed "x-user" rfl _ "%" rfl (by decide) .base64 (by with_unfolding_all rfl)
  · refine (hone.unasserted "x-user" rfl _ ?_).trans ?_
    · intro value hvalue
      obtain rfl := Option.some.inj hvalue
      decide
    · exact (Deployment.oneSource Sample.deployment).bearer rfl _ _ rfl

end SessionGate
