import SessionGate.Proofs.Token.Issue

/-!
The verdict on a token. Which tokens are accepted, and which are told to be over, is said by what they are
made of and the window of their claims alone. A token for another algorithm is never either, and as time
goes on a token that was accepted can only come to be over.
-/

namespace SessionGate.Token

namespace Authority

variable {a : Authority} {token : String}

theorem seconds_le {now later : Instant} (h : now ≤ later) : now.seconds ≤ later.seconds := by
  rw [Instant.le_iff] at h
  rw [Instant.seconds_eq, Instant.seconds_eq]
  omega

/-- A token that opens at one authority has a header that every other algorithm is refused for. -/
theorem verify_of_algorithm_ne {b : Authority} (t : SignedToken a token) (h : b.algorithm ≠ a.algorithm)
    (now : Instant) :
    b.verify now token = .error (.invalidToken (.unexpectedAlgorithm a.algorithm)) := by
  rw [verify_eq, opened, t.segments_eq]
  simp only [t.header_eq, t.algorithm_eq, if_neg h.symm]
  rfl

theorem accepted_iff (hsound : a.keys.Sound) {now : Instant} {c : Claims} :
    a.verify now token = .ok c ↔ a.Holds token c ∧
      c.issuedAt.toInt ≤ now.seconds + a.leeway ∧ now.seconds ≤ (a.lastSecond c).toInt := by
  rw [← checkWindow_eq_ok_iff]
  constructor
  · intro h
    by_cases hholds : ∃ c', a.Holds token c'
    · obtain ⟨c', hholds⟩ := hholds
      rw [verify_of_holds hsound hholds] at h
      obtain ⟨_, hwindow, rfl⟩ := Except.map_eq_ok_iff.mp h
      exact ⟨hholds, hwindow⟩
    · obtain ⟨r, -, hr⟩ := verify_of_not_holds hsound (not_exists.mp hholds)
      cases (hr now).symm.trans h
  · rintro ⟨hholds, hwindow⟩
    rw [verify_of_holds hsound hholds, hwindow]
    rfl

theorem expired_iff (hsound : a.keys.Sound) {now : Instant} :
    a.verify now token = .error .expired ↔ ∃ c, a.Holds token c ∧
      c.issuedAt.toInt ≤ now.seconds + a.leeway ∧ (a.lastSecond c).toInt < now.seconds := by
  simp only [← checkWindow_eq_expired_iff]
  constructor
  · intro h
    by_cases hholds : ∃ c, a.Holds token c
    · obtain ⟨c, hholds⟩ := hholds
      rw [verify_of_holds hsound hholds] at h
      exact ⟨c, hholds, Except.map_eq_error_iff.mp h⟩
    · obtain ⟨r, hturns, hr⟩ := verify_of_not_holds hsound (not_exists.mp hholds)
      obtain rfl := Except.error.inj ((hr now).symm.trans h)
      rcases hturns with hwrong | ⟨fault, hinvalid⟩
      · cases hwrong
      · cases hinvalid
  · rintro ⟨c, hholds, hwindow⟩
    rw [verify_of_holds hsound hholds, hwindow]
    rfl

/-- How an authority judges a token. It accepts exactly the claims that the token holds, while their window
is open, and tells that they are over exactly after that. The window ends with the token, as many seconds
later as the skew has, unless the sum leaves 64 bits. A token without a signature gets neither answer,
nor does one whose key is too long to be checked with, and none is accepted under two algorithms. From
one time to a later one a token that is over stays over, and one that is accepted either is so still or
is over. -/
structure Verdict (a : Authority) (token : String) : Prop where
  accepted : ∀ now c, a.verify now token = .ok c ↔ a.Holds token c ∧
    c.issuedAt.toInt ≤ now.seconds + a.leeway ∧ now.seconds ≤ (a.lastSecond c).toInt
  ended : ∀ now, a.verify now token = .error .expired ↔ ∃ c, a.Holds token c ∧
    c.issuedAt.toInt ≤ now.seconds + a.leeway ∧ (a.lastSecond c).toInt < now.seconds
  lastSecond : ∀ c, -2 ^ 63 ≤ c.expiresAt.toInt + a.leeway → c.expiresAt.toInt + a.leeway < 2 ^ 63 →
    (a.lastSecond c).toInt = c.expiresAt.toInt + a.leeway
  unsigned : ¬ Nonempty (SignedToken a token) →
    ∃ r : Refusal, r.TurnsDown ∧ ∀ now, a.verify now token = .error r
  long : ∀ t : SignedToken a token, ¬ t.key.Short →
    ∀ now, a.verify now token = .error .wrongSignature
  one_algorithm : ∀ (b : Authority) now later c, b.algorithm ≠ a.algorithm →
    a.verify now token = .ok c →
    b.verify later token = .error (.invalidToken (.unexpectedAlgorithm a.algorithm))
  onward : ∀ now later, now ≤ later →
    (a.verify now token = .error .expired → a.verify later token = .error .expired) ∧
    ∀ c, a.verify now token = .ok c →
      a.verify later token = .ok c ∨ a.verify later token = .error .expired

theorem verdict (hsound : a.keys.Sound) (token : String) : Verdict a token where
  accepted now c := accepted_iff hsound
  ended now := expired_iff hsound
  lastSecond c := toInt_lastSecond
  unsigned hnone := verify_of_not_holds hsound fun c ⟨t, _⟩ => hnone ⟨t⟩
  long t hlong now := verify_signed_of_long t (hsound.select? t.key_eq) hlong now
  one_algorithm b _ later _ halgorithm h := by
    obtain ⟨⟨t, -⟩, -⟩ := (accepted_iff hsound).mp h
    exact verify_of_algorithm_ne t halgorithm later
  onward now later hle := by
    have hseconds := seconds_le hle
    constructor
    · intro h
      obtain ⟨c, hholds, hissued, hover⟩ := (expired_iff hsound).mp h
      exact (expired_iff hsound).mpr ⟨c, hholds, by omega, by omega⟩
    · intro c h
      obtain ⟨hholds, hissued, -⟩ := (accepted_iff hsound).mp h
      by_cases hopen : later.seconds ≤ (a.lastSecond c).toInt
      · exact .inl ((accepted_iff hsound).mpr ⟨hholds, by omega, hopen⟩)
      · exact .inr ((expired_iff hsound).mpr ⟨c, hholds, by omega, by omega⟩)

end Authority

namespace Sample

/-- An authority with a shared secret, which lets clocks be five seconds apart. -/
def sharing : Authority where
  keys := .shared (List.replicate 32 7)
  issuer := some "gate"
  audience := none
  skew := ⟨5, by decide⟩

/-- An authority with the smallest of keys. -/
def signing : Authority where
  keys := .asymmetric "k" ⟨35, 5, 5, 5, 7⟩ { keys := [.ofKey "k" ⟨35, 5⟩] }
  issuer := none
  audience := none
  skew := ⟨0, Nat.zero_le _⟩

def claims : Claims := sharing.claims ⟨500000000⟩ ⟨86400500000000⟩ "first" 7

theorem check_sharing : sharing.keys.Check sharing.keys := rfl

theorem sound_sharing : sharing.keys.verifier.Sound := trivial

theorem exists_token : ∃ token, sharing.Holds token claims := by
  obtain ⟨token, htoken⟩ := Authority.exists_tokenOf? (a := sharing) rfl claims
  have hexpiry : 0 ≤ claims.expiresAt.toInt := show (0 : Int) ≤ 86400 by decide
  exact ⟨token, Authority.holds_of_tokenOf? check_sharing sound_sharing trivial htoken (Authority.agree_self _)
    (Authority.agree_self _) hexpiry⟩

end Sample

theorem Authority.verdict_sample : ∃ token,
    Sample.sharing.verify ⟨86405999999999⟩ token = .ok Sample.claims ∧
      Sample.sharing.verify ⟨86406000000000⟩ token = .error .expired ∧
      ∀ later, Sample.signing.verify later token =
        .error (.invalidToken (.unexpectedAlgorithm .hs256)) := by
  have hissued : Sample.claims.issuedAt.toInt = 0 := by
    decide
  have hlast : (Sample.sharing.lastSecond Sample.claims).toInt = 86405 := by
    decide
  obtain ⟨token, hholds⟩ := Sample.exists_token
  have hsound : Sample.sharing.keys.Sound := trivial
  have hverdict := verdict hsound token
  have haccepted : Sample.sharing.verify ⟨86405999999999⟩ token = .ok Sample.claims := by
    rw [hverdict.accepted, hissued, hlast]
    exact ⟨hholds, by decide, by decide⟩
  refine ⟨token, haccepted, ?_, ?_⟩
  · rw [hverdict.ended]
    refine ⟨Sample.claims, hholds, ?_⟩
    rw [hissued, hlast]
    decide
  · intro later
    exact hverdict.one_algorithm Sample.signing _ later _ (by decide) haccepted

end SessionGate.Token
