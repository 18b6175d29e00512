import Mathlib.Algebra.Group.Int.Defs
import SessionGate.Proofs.Host.Asking
import SessionGate.Proofs.Setup.Keys
import SessionGate.Proofs.Token.Verify

/-!
The clock skew that an authority tolerates, and what becomes of the one that is configured. It is configured
as a number without a sign and read as one with a sign. Up to the longest skew that can be told it is what is
configured; beyond it there is a panic, and close to the greatest number the skew is negative. Main statement:
`leeway_read`.
-/

namespace SessionGate.Token.Authority

variable {a : Authority} {token : String} {c : Claims}

/-- A token that an authority can open over claims that it takes, whatever their window of time. -/
def Bears (a : Authority) (token : String) (c : Claims) : Prop :=
  ∃ payload, a.opened token = .ok payload ∧ a.Reads payload c

theorem verify_of_bears (h : a.Bears token c) (now : Instant) :
    a.verify now token = (a.checkWindow now c).map fun _ => c := by
  obtain ⟨payload, hopened, hreads⟩ := h
  rw [verify_eq, hopened]
  exact judge_of_reads hreads now

theorem verify_eq_ok_iff {now : Instant} : a.verify now token = .ok c ↔ a.Bears token c ∧
    c.issuedAt.toInt ≤ now.seconds + a.leeway ∧ now.seconds ≤ (a.lastSecond c).toInt := by
  rw [← checkWindow_eq_ok_iff]
  constructor
  · intro h
    rw [verify_eq] at h
    obtain ⟨payload, hopened, hjudge⟩ := Except.bind_eq_ok_iff.mp h
    obtain ⟨hreads, hwindow⟩ := judge_eq_ok_iff.mp hjudge
    exact ⟨⟨payload, hopened, hreads⟩, hwindow⟩
  · rintro ⟨hbears, hwindow⟩
    rw [verify_of_bears hbears, hwindow]
    rfl

theorem leeway_with (a : Authority) (skew : Skew) : { a with skew }.leeway = skew.seconds := rfl

/-- What a token bears does not depend on the skew that is tolerated. -/
theorem bears_with (skew : Skew) (h : a.Bears token c) : { a with skew }.Bears token c := by
  obtain ⟨payload, hopened, v, hvalue, hclaims, hnames⟩ := h
  exact ⟨payload, hopened, v, hvalue, hclaims, hnames⟩

theorem verify_raised (skew : Skew) (hnonneg : 0 ≤ a.leeway) (hle : a.leeway ≤ skew.seconds)
    {now : Instant} (hgreatest : c.expiresAt.toInt + skew.seconds < 2 ^ 63)
    (h : a.verify now token = .ok c) : { a with skew }.verify now token = .ok c := by
  obtain ⟨hbears, hissued, hopen⟩ := verify_eq_ok_iff.mp h
  have hleast : -2 ^ 63 ≤ c.expiresAt.toInt := c.expiresAt.le_toInt
  have hbefore : (a.lastSecond c).toInt = c.expiresAt.toInt + a.leeway :=
    toInt_lastSecond (by omega) (by omega)
  have hafter : ({ a with skew }.lastSecond c).toInt = c.expiresAt.toInt + skew.seconds :=
    toInt_lastSecond (by rw [leeway_with]; omega) hgreatest
  refine verify_eq_ok_iff.mpr ⟨bears_with skew hbears, ?_, ?_⟩
  · rw [leeway_with]
    omega
  · omega

/-- With a negative skew a new token comes before its time. -/
theorem verify_lowered {skew : Skew} (hneg : skew.seconds < 0) {now : Instant}
    (h : a.verify now token = .ok c) (hnew : now.seconds ≤ c.issuedAt.toInt) :
    { a with skew }.verify now token = .error (.invalidToken .beforeIssue) := by
  obtain ⟨hbears, -⟩ := verify_eq_ok_iff.mp h
  have hearly : now.seconds + { a with skew }.leeway < c.issuedAt.toInt := by
    rw [leeway_with]
    omega
  rw [verify_of_bears (bears_with skew hbears), checkWindow, if_pos hearly]
  rfl

/-- Of all claims that tokens bear, exactly those are taken whose window is open, give or take a number of
seconds. Nothing is said where this number and the end of the window have a sum beyond 64 bits. -/
def Tolerates (a : Authority) (skew : Int) : Prop :=
  ∀ now token c, -2 ^ 63 ≤ c.expiresAt.toInt + skew → c.expiresAt.toInt + skew < 2 ^ 63 →
    (a.verify now token = .ok c ↔ a.Bears token c ∧
      c.issuedAt.toInt ≤ now.seconds + skew ∧ now.seconds ≤ c.expiresAt.toInt + skew)

theorem tolerates_leeway (a : Authority) : a.Tolerates a.leeway := by
  intro now token c hleast hgreatest
  rw [verify_eq_ok_iff, toInt_lastSecond hleast hgreatest]

end SessionGate.Token.Authority

namespace SessionGate.Setup

open Token

theorem toInt_toInt64 (n : UInt64) :
    n.toInt64.toInt = if n.toNat < 2 ^ 63 then (n.toNat : Int) else n.toNat - 2 ^ 64 := by
  change n.toBitVec.toInt = _
  rw [BitVec.toInt_eq_toNat_cond]
  change (if 2 * n.toNat < 2 ^ 64 then (n.toNat : Int) else n.toNat - 2 ^ 64) = _
  split <;> split <;> omega

/-- What becomes of a token section on a system. -/
def setUp (s : Host.System) (t : Config.Tokens) : Except Fault Authority := (s.run (authorityOf t)).1

/-- The authority with the names of a token section. -/
def authorityAt (keys : Keys) (t : Config.Tokens) (skew : Skew) : Authority where
  keys := keys
  issuer := t.issuer.filter (· ≠ "")
  audience := t.audience.filter (· ≠ "")
  skew := skew

section

variable {s : Host.System} {t : Config.Tokens} {keys : Keys}

theorem setUp_eq (h : (s.run (keysOf t)).1 = .ok keys) :
    setUp s t = (skew t.leewaySeconds.toInt64.toInt).map (authorityAt keys t) := by
  change (s.run ((keysOf t).run >>= ExceptT.bindCont fun keys =>
    ExceptT.mk (pure (authority keys t.issuer t.audience t.leewaySeconds.toInt64.toInt)))).1 = _
  rw [Host.System.run_bind]
  replace h : (s.run (keysOf t).run).1 = .ok keys := h
  rw [h]
  -- The leeway is looked at only now: without keys there is no panic.
  change authority keys t.issuer t.audience t.leewaySeconds.toInt64.toInt = _
  unfold authority
  cases skew t.leewaySeconds.toInt64.toInt <;> rfl

theorem setUp_of_read (h : (s.run (keysOf t)).1 = .ok keys) (given : Skew)
    (hread : t.leewaySeconds.toInt64.toInt = given.seconds) : setUp s t = .ok (authorityAt keys t given) := by
  rw [setUp_eq h, hread, skew, dif_pos given.told]
  rfl

theorem setUp_told (h : (s.run (keysOf t)).1 = .ok keys) (hleeway : t.leewaySeconds.toNat ≤ longestSkew) :
    setUp s t = .ok (authorityAt keys t ⟨t.leewaySeconds.toNat, hleeway⟩) := by
  have hread := toInt_toInt64 t.leewaySeconds
  have hlongest : longestSkew < 2 ^ 63 := by decide
  rw [if_pos (by omega)] at hread
  exact setUp_of_read h _ hread

theorem setUp_past (h : (s.run (keysOf t)).1 = .ok keys) (hlong : longestSkew < t.leewaySeconds.toNat)
    (hshort : t.leewaySeconds.toNat + longestSkew < 2 ^ 64) : setUp s t = .error .pastCalendar := by
  have hread := toInt_toInt64 t.leewaySeconds
  rw [longestSkew] at hlong hshort
  rw [setUp_eq h, skew, dif_neg]
  · rfl
  · rw [hread, longestSkew]
    split <;> omega

theorem setUp_negative (h : (s.run (keysOf t)).1 = .ok keys)
    (hleeway : 2 ^ 64 ≤ t.leewaySeconds.toNat + longestSkew) :
    ∃ given : Skew, given.seconds = t.leewaySeconds.toNat - 2 ^ 64 ∧
      setUp s t = .ok (authorityAt keys t given) := by
  have hread := toInt_toInt64 t.leewaySeconds
  have hlt : t.leewaySeconds.toNat < 2 ^ 64 := t.leewaySeconds.toNat_lt
  have hlongest : longestSkew < 2 ^ 63 := by decide
  rw [if_neg (by omega)] at hread
  exact ⟨⟨_, by omega⟩, rfl, setUp_of_read h _ hread⟩

theorem setUp_cases (h : (s.run (keysOf t)).1 = .ok keys) :
    (∃ hleeway : t.leewaySeconds.toNat ≤ longestSkew,
      setUp s t = .ok (authorityAt keys t ⟨t.leewaySeconds.toNat, hleeway⟩)) ∨
    ((longestSkew < t.leewaySeconds.toNat ∧ t.leewaySeconds.toNat + longestSkew < 2 ^ 64) ∧
      setUp s t = .error .pastCalendar) ∨
    (2 ^ 64 ≤ t.leewaySeconds.toNat + longestSkew ∧ ∃ given : Skew,
      given.seconds = t.leewaySeconds.toNat - 2 ^ 64 ∧ setUp s t = .ok (authorityAt keys t given)) := by
  by_cases htold : t.leewaySeconds.toNat ≤ longestSkew
  · exact .inl ⟨htold, setUp_told h htold⟩
  · by_cases hnegative : 2 ^ 64 ≤ t.leewaySeconds.toNat + longestSkew
    · exact .inr (.inr ⟨hnegative, setUp_negative h hnegative⟩)
    · have hpast : longestSkew < t.leewaySeconds.toNat ∧
          t.leewaySeconds.toNat + longestSkew < 2 ^ 64 := by omega
      exact .inr (.inl ⟨hpast, setUp_past h hpast.1 hpast.2⟩)

end

/-- A token section that says the same but for its leeway. -/
def withLeeway (t : Config.Tokens) (leeway : UInt64) : Config.Tokens :=
  { t with leewaySeconds := leeway }

/-- What becomes of the leeway of a token section whose keys are set up. -/
structure LeewayRead (s : Host.System) (t : Config.Tokens) (keys : Keys) : Prop where
  /-- It is what is configured exactly up to the longest skew that can be told. -/
  kept_iff : (∃ a, setUp s t = .ok a ∧ a.leeway = t.leewaySeconds.toNat) ↔
    t.leewaySeconds.toNat ≤ longestSkew
  /-- There it is tolerated to the second. -/
  told : t.leewaySeconds.toNat ≤ longestSkew →
    ∃ a, setUp s t = .ok a ∧ a.keys = keys ∧ a.Tolerates t.leewaySeconds.toNat
  /-- Beyond it there is a panic, except close to the greatest number. -/
  past_iff : setUp s t = .error .pastCalendar ↔
    longestSkew < t.leewaySeconds.toNat ∧ t.leewaySeconds.toNat + longestSkew < 2 ^ 64
  /-- There the number is read as a negative one. -/
  negative : 2 ^ 64 ≤ t.leewaySeconds.toNat + longestSkew →
    ∃ a, setUp s t = .ok a ∧ a.keys = keys ∧ a.leeway < 0 ∧ a.Tolerates (t.leewaySeconds.toNat - 2 ^ 64)
  /-- Raised to no more than the longest skew, it turns no token away that was taken. -/
  raised : ∀ more, t.leewaySeconds ≤ more → more.toNat ≤ longestSkew →
    ∀ a b, setUp s t = .ok a → setUp s (withLeeway t more) = .ok b →
      ∀ now token c, c.expiresAt.toInt + (more.toNat : Int) < 2 ^ 63 →
        a.verify now token = .ok c → b.verify now token = .ok c
  /-- Raised so far that it is read as a negative number, it turns every new token away. -/
  lowered : ∀ more, t.leewaySeconds.toNat ≤ longestSkew → 2 ^ 64 ≤ more.toNat + longestSkew →
    ∃ a b, setUp s t = .ok a ∧ setUp s (withLeeway t more) = .ok b ∧
      ∀ now token c, a.verify now token = .ok c → now.seconds ≤ c.issuedAt.toInt →
        b.verify now token = .error (.invalidToken .beforeIssue)

theorem leeway_read (s : Host.System) (t : Config.Tokens) {keys : Keys}
    (h : (s.run (keysOf t)).1 = .ok keys) : LeewayRead s t keys := by
  have hmore : ∀ more, (s.run (keysOf (withLeeway t more))).1 = .ok keys := fun _ => h
  have hlt : t.leewaySeconds.toNat < 2 ^ 64 := t.leewaySeconds.toNat_lt
  have hlongest : longestSkew < 2 ^ 63 := by decide
  refine ⟨⟨?_, ?_⟩, ?_, ⟨?_, ?_⟩, ?_, ?_, ?_⟩
  · rintro ⟨a, ha, hleeway⟩
    obtain ⟨htold, -⟩ | ⟨-, hpast⟩ | ⟨-, given, hgiven, hnegative⟩ := setUp_cases h
    · exact htold
    · cases hpast.symm.trans ha
    · obtain rfl := Except.ok.inj (hnegative.symm.trans ha)
      replace hleeway : given.seconds = t.leewaySeconds.toNat := hleeway
      omega
  · intro hleeway
    exact ⟨_, setUp_told h hleeway, rfl⟩
  · intro hleeway
    exact ⟨_, setUp_told h hleeway, rfl, Authority.tolerates_leeway _⟩
  · intro hpast
    obtain ⟨_, hok⟩ | ⟨hbetween, -⟩ | ⟨-, _, -, hok⟩ := setUp_cases h
    · cases hok.symm.trans hpast
    · exact hbetween
    · cases hok.symm.trans hpast
  · rintro ⟨hlong, hshort⟩
    exact setUp_past h hlong hshort
  · intro hleeway
    obtain ⟨given, hgiven, hnegative⟩ := setUp_negative h hleeway
    refine ⟨_, hnegative, rfl, ?_, ?_⟩
    · change given.seconds < 0
      omega
    · rw [← hgiven]
      exact Authority.tolerates_leeway _
  · intro more hle hmost a b ha hb now token c hgreatest hverify
    rw [UInt64.le_iff_toNat_le] at hle
    have hleeway := hle.trans hmost
    obtain rfl := Except.ok.inj ((setUp_told h hleeway).symm.trans ha)
    obtain rfl := Except.ok.inj ((setUp_told (hmore more) hmost).symm.trans hb)
    exact Authority.verify_raised (a := authorityAt keys t ⟨t.leewaySeconds.toNat, hleeway⟩)
      ⟨more.toNat, hmost⟩ (Int.natCast_nonneg _) (Int.ofNat_le.mpr hle) hgreatest hverify
  · intro more hleeway hmost
    obtain ⟨given, hgiven, hnegative⟩ := setUp_negative (hmore more) hmost
    refine ⟨_, _, setUp_told h hleeway, hnegative, ?_⟩
    intro now token c
    have hneg : given.seconds < 0 := by
      have hlt : more.toNat < 2 ^ 64 := more.toNat_lt
      rw [hgiven]
      change (more.toNat - 2 ^ 64 : Int) < 0
      omega
    exact Authority.verify_lowered (a := authorityAt keys t _) hneg

namespace Sample

/-- A system without files. -/
def bare : Host.System where
  files := { nodes := [] }
  here := []
  environment := []
  servers := []
  input := ""
  output := []
  complaints := []
  entropy := []
  key := none

def tokens : Config.Tokens := { secret := some "0123456789abcdef0123456789abcdef" }

def secretKeys : Keys := .shared "0123456789abcdef0123456789abcdef".toUTF8.toList

theorem keysOf_tokens : (bare.run (keysOf tokens)).1 = .ok secretKeys :=
  if_neg (by decide +kernel)

def claims : Claims where
  subject := 7
  session := "first"
  issuedAt := 0
  expiresAt := 86400
  issuer := none
  audience := none
  subjectText := some "7"

/-- No skew at all. -/
def noSkew : Skew := ⟨0, Nat.zero_le _⟩

theorem exists_taken : ∃ token, (authorityAt secretKeys tokens noSkew).verify ⟨0⟩ token = .ok claims := by
  obtain ⟨token, htoken⟩ := Authority.exists_tokenOf? (a := authorityAt secretKeys tokens noSkew) rfl claims
  have hconsistent : (authorityAt secretKeys tokens noSkew).keys.Consistent := trivial
  have husable : (authorityAt secretKeys tokens noSkew).keys.Usable := trivial
  refine ⟨token, ?_⟩
  rw [Authority.verify_tokenOf? hconsistent htoken rfl rfl (by decide), if_pos husable]
  rfl

end Sample

/-- A new token is taken without a leeway and turned away with the greatest one. -/
theorem leeway_read_sample :
    setUp Sample.bare (withLeeway Sample.tokens 9223372036854776) = .error .pastCalendar ∧
    ∃ a b token, setUp Sample.bare Sample.tokens = .ok a ∧
      setUp Sample.bare (withLeeway Sample.tokens 18446744073709551615) = .ok b ∧
      a.verify ⟨0⟩ token = .ok Sample.claims ∧
      b.verify ⟨0⟩ token = .error (.invalidToken .beforeIssue) := by
  have hpast := leeway_read Sample.bare (withLeeway Sample.tokens 9223372036854776) Sample.keysOf_tokens
  have hread := leeway_read Sample.bare Sample.tokens Sample.keysOf_tokens
  obtain ⟨a, b, ha, hb, hlowered⟩ := hread.lowered 18446744073709551615 (by decide) (by decide)
  obtain rfl := Except.ok.inj ((setUp_told Sample.keysOf_tokens (by decide)).symm.trans ha)
  obtain ⟨token, htaken⟩ := Sample.exists_taken
  exact ⟨hpast.past_iff.mpr (by decide), _, b, token, ha, hb, htaken,
    hlowered ⟨0⟩ token _ htaken (by decide)⟩

end SessionGate.Setup
