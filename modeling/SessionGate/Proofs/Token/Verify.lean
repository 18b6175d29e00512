import Mathlib.Algebra.Group.Int.Defs
import SessionGate.Proofs.Encoding.Base64
import SessionGate.Proofs.Except
import SessionGate.Proofs.Rsa.Signature
import SessionGate.Text.Pieces
import SessionGate.Token.Authority

/-!
What checking makes of any text. A token is accepted, or told to be over, only if it comes apart into
three pieces of which the last is a signature of the others under the key that the first selects. What
its payload says and its window of time decide the rest.
-/

namespace SessionGate

/-- What is said of a token that is not as it should be, whatever the time. -/
def Refusal.TurnsDown (r : Refusal) : Prop :=
  r = .wrongSignature ∨ ∃ fault, r = .invalidToken fault

namespace Token

theorem dot_not_mem_url : '.' ∉ Base64.url.chars := by
  decide +kernel

theorem dot_not_mem_of_decodeChars? {chars : List Char} {bytes : List UInt8}
    (h : Base64.decodeChars? Base64.url chars = some bytes) : '.' ∉ chars := by
  intro hdot
  exact dot_not_mem_url (Base64.mem_chars_of_decodeChars? h hdot)

theorem splitLastDot?_append {last : List Char} (h : '.' ∉ last) (before : List Char) :
    splitLastDot? (before ++ '.' :: last) = some (before, last) := by
  have hlast : ((before ++ '.' :: last).reverse.takeWhile (· ≠ '.')).reverse = last := by
    have hall : ∀ c ∈ last.reverse, decide (c ≠ '.') = true := by
      intro c hc
      exact decide_eq_true fun heq => h (heq ▸ List.mem_reverse.mp hc)
    rw [List.reverse_append, List.reverse_cons, List.append_assoc,
      List.takeWhile_append_of_pos hall]
    simp
  rw [splitLastDot?, hlast, if_pos (by simp; omega)]
  have hlength : (before ++ '.' :: last).length - last.length - 1 = before.length := by
    rw [List.length_append, List.length_cons]
    omega
  rw [hlength, List.take_left]

theorem splitLastDot?_of_not_mem {chars : List Char} (h : '.' ∉ chars) :
    splitLastDot? chars = none := by
  have hall : chars.reverse.takeWhile (· ≠ '.') = chars.reverse := by
    have hforall : ∀ c ∈ chars.reverse, decide (c ≠ '.') = true := by
      intro c hc
      exact decide_eq_true fun heq => h (heq ▸ List.mem_reverse.mp hc)
    rw [← List.append_nil chars.reverse, List.takeWhile_append_of_pos hforall, List.takeWhile_nil]
  rw [splitLastDot?, hall, List.reverse_reverse, if_neg (Nat.lt_irrefl _)]

theorem splitLastDot?_eq_some_iff {chars before last : List Char} :
    splitLastDot? chars = some (before, last) ↔ chars = before ++ '.' :: last ∧ '.' ∉ last := by
  constructor
  · intro h
    by_cases hdot : '.' ∈ chars
    · obtain ⟨as, bs, hreverse, hfirst⟩ := List.eq_append_cons_of_mem (List.mem_reverse.mpr hdot)
      have hchars : chars = bs.reverse ++ '.' :: as.reverse := by
        rw [← List.reverse_reverse chars, hreverse]
        simp
      have hlast : '.' ∉ as.reverse := mt List.mem_reverse.mp hfirst
      rw [hchars, splitLastDot?_append hlast] at h
      obtain ⟨rfl, rfl⟩ := Prod.mk.inj (Option.some.inj h)
      exact ⟨hchars, hlast⟩
    · rw [splitLastDot?_of_not_mem hdot] at h
      cases h
  · rintro ⟨rfl, hlast⟩
    exact splitLastDot?_append hlast before

theorem pieces_eq_three_iff {chars first second third : List Char} :
    Text.pieces '.' chars = [first, second, third] ↔
      chars = (first ++ '.' :: second) ++ '.' :: third ∧
        '.' ∉ first ∧ '.' ∉ second ∧ '.' ∉ third := by
  constructor
  · intro h
    have hmem := fun piece (hpiece : piece ∈ [first, second, third]) =>
      Text.not_mem_of_mem_pieces (h ▸ hpiece)
    have hjoin := Text.intercalate_pieces '.' chars
    rw [h] at hjoin
    refine ⟨?_, hmem _ (by simp), hmem _ (by simp), hmem _ (by simp)⟩
    rw [← hjoin]
    simp [List.intercalate, List.intersperse]
  · rintro ⟨rfl, hfirst, hsecond, hthird⟩
    rw [List.append_assoc, List.cons_append, Text.pieces_append hfirst, Text.pieces_append hsecond,
      Text.pieces_of_not_mem hthird]

inductive Key
  | secret (bytes : List UInt8)
  | rsa (key : Rsa.PublicKey)

namespace Key

/-- A signature of the message, as the algorithm of the key defines it. -/
def Fits : Key → List UInt8 → List UInt8 → Prop
  | .secret bytes, message, signature => signature = Hmac.code bytes message
  | .rsa key, message, signature => key.Verifies message signature

def Sound : Key → Prop
  | .secret _ => True
  | .rsa key => key.Sound

/-- The length of a key is limited where signatures are checked, and nowhere else. -/
def Short : Key → Prop
  | .secret _ => True
  | .rsa key => key.bits ≤ Rsa.greatestBits

end Key

namespace Keys

/-- The key that a header selects by its key id. Without one it is the active key. -/
def select? (keys : Keys) (keyId : Option String) : Option Key :=
  match keys with
  | .shared secret => some (.secret secret)
  | .asymmetric active _ published =>
    ((published.find? (keyId.getD active)).bind PublishedKey.key?).map .rsa

/-- Every published entry spells out a key that can work. -/
def Sound : Keys → Prop
  | .shared _ => True
  | .asymmetric _ _ published =>
    ∀ entry ∈ published.keys, ∃ key, entry.key? = some key ∧ key.Sound

theorem Sound.select? {keys : Keys} (hsound : keys.Sound) {keyId : Option String} {key : Key}
    (h : keys.select? keyId = some key) : key.Sound := by
  cases keys with
  | shared secret =>
    obtain rfl := Option.some.inj h
    trivial
  | asymmetric active signing published =>
    obtain ⟨found, hfound, rfl⟩ := Option.map_eq_some_iff.mp h
    obtain ⟨entry, hentry, hread⟩ := Option.bind_eq_some_iff.mp hfound
    obtain ⟨sound, hsame, hworks⟩ := hsound entry (List.mem_of_find?_eq_some hentry)
    exact Option.some.inj (hsame.symm.trans hread) ▸ hworks

end Keys

/-- A token as it should be: its first piece is a header for the algorithm in use, and its last a
signature of the two before it under the key that the header selects. -/
structure SignedToken (a : Authority) (token : String) where
  headerText : List Char
  payload : List Char
  signatureText : List Char
  pieces_eq : Text.pieces '.' token.toList = [headerText, payload, signatureText]
  header : Header
  header_eq : Authority.readHeader headerText = .ok header
  algorithm_eq : header.algorithm = a.algorithm
  key : Key
  key_eq : a.keys.select? header.keyId = some key
  signature : List UInt8
  signature_eq : Base64.decodeChars? Base64.url signatureText = some signature
  fits : key.Fits (charBytes (headerText ++ '.' :: payload)) signature

variable {a b : Authority} {token : String}

theorem Segments.ofText?_ofList (header payload signature : List Char) (hpayload : '.' ∉ payload)
    (hsignature : '.' ∉ signature) :
    ofText? (String.ofList ((header ++ '.' :: payload) ++ '.' :: signature)) =
      some { signed := header ++ '.' :: payload, header, payload, signature } := by
  rw [ofText?, String.toList_ofList, splitLastDot?_append hsignature]
  simp only [Option.bind_eq_bind, Option.bind_some, splitLastDot?_append hpayload]

theorem SignedToken.segments_eq (t : SignedToken a token) : Segments.ofText? token = some {
    signed := t.headerText ++ '.' :: t.payload
    header := t.headerText
    payload := t.payload
    signature := t.signatureText } := by
  obtain ⟨hchars, -, hpayload, hsignature⟩ := pieces_eq_three_iff.mp t.pieces_eq
  have hsegments := Segments.ofText?_ofList t.headerText _ _ hpayload hsignature
  rwa [← hchars, String.ofList_toList] at hsegments

theorem Segments.ofText?_eq_some {s : Segments} (h : ofText? token = some s) :
    token.toList = (s.header ++ '.' :: s.payload) ++ '.' :: s.signature ∧
      s.signed = s.header ++ '.' :: s.payload ∧ '.' ∉ s.payload ∧ '.' ∉ s.signature := by
  unfold ofText? at h
  obtain ⟨⟨signed, signature⟩, hlast, h⟩ := Option.bind_eq_some_iff.mp h
  obtain ⟨⟨header, payload⟩, hmiddle, h⟩ := Option.bind_eq_some_iff.mp h
  obtain rfl := Option.some.inj h
  obtain ⟨hchars, hsignature⟩ := splitLastDot?_eq_some_iff.mp hlast
  obtain ⟨rfl, hpayload⟩ := splitLastDot?_eq_some_iff.mp hmiddle
  exact ⟨hchars, rfl, hpayload, hsignature⟩

namespace Authority

theorem dot_not_mem_of_readHeader {chars : List Char} {h : Header} (hread : readHeader chars = .ok h) :
    '.' ∉ chars := by
  unfold readHeader at hread
  cases hbytes : Base64.decodeChars? Base64.url chars with
  | none =>
    rw [hbytes] at hread
    cases hread
  | some bytes => exact dot_not_mem_of_decodeChars? hbytes

theorem checker_of_select? {h : Header} {key : Key} (hkey : a.keys.select? h.keyId = some key)
    (hsound : key.Sound) : ∃ fits, a.checker h = .ok fits ∧
      ∀ message signature, fits message signature = true ↔
        key.Short ∧ key.Fits message signature := by
  unfold checker
  cases hkeys : a.keys with
  | shared secret =>
    rw [hkeys] at hkey
    obtain rfl := Option.some.inj hkey
    refine ⟨_, rfl, ?_⟩
    intro message signature
    simp [Key.Short, Key.Fits]
  | asymmetric active signing published =>
    rw [hkeys] at hkey
    obtain ⟨found, hfound, rfl⟩ := Option.map_eq_some_iff.mp hkey
    obtain ⟨entry, hentry, hread⟩ := Option.bind_eq_some_iff.mp hfound
    refine ⟨fun message signature => found.accepts message signature, ?_, ?_⟩
    · simp only [hentry, hread]
    · intro message signature
      rw [Rsa.accepts_iff]
      exact and_iff_right hsound

theorem checker_of_select?_eq_none (hsound : a.keys.Sound) {h : Header}
    (hkey : a.keys.select? h.keyId = none) : ∃ id, a.checker h = .error (.unknownKey id) := by
  unfold checker
  cases hkeys : a.keys with
  | shared secret =>
    rw [hkeys] at hkey
    cases hkey
  | asymmetric active signing published =>
    rw [hkeys] at hkey hsound
    cases hentry : published.find? (h.keyId.getD active) with
    | none => exact ⟨h.keyId.getD active, by simp only [hentry]⟩
    -- An entry that is published spells out a key, so the id was not selected for want of an entry.
    | some entry =>
      obtain ⟨sound, hread, -⟩ := hsound entry (List.mem_of_find?_eq_some hentry)
      simp [Keys.select?, hentry, hread] at hkey

/-- The payload of a token whose signature fits. The clock has no part in it. -/
def opened (a : Authority) (token : String) : Except Refusal (List Char) :=
  match Segments.ofText? token with
  | none => .error (.invalidToken .shape)
  | some s => match readHeader s.header with
    | .error fault => .error (.invalidToken fault)
    | .ok header =>
      if header.algorithm = a.algorithm then
        match a.checker header with
        | .error fault => .error (.invalidToken fault)
        | .ok fits => match Base64.decodeChars? Base64.url s.signature with
          | none => .error .wrongSignature
          | some signature =>
            if fits (charBytes s.signed) signature then .ok s.payload else .error .wrongSignature
      else .error (.invalidToken (.unexpectedAlgorithm header.algorithm))

/-- What is left to check of a payload once its signature fits. -/
def judge (a : Authority) (now : Instant) (payload : List Char) : Except Refusal Claims := do
  let some bytes := Base64.decodeChars? Base64.url payload | throw .wrongSignature
  let c ← (a.readPayload bytes).mapError .invalidToken
  a.checkWindow now c
  return c

theorem verify_eq (a : Authority) (now : Instant) (token : String) :
    a.verify now token = (a.opened token).bind (a.judge now) := by
  unfold verify opened
  cases Segments.ofText? token with
  | none => rfl
  | some s =>
    dsimp only
    cases readHeader s.header with
    | error fault => rfl
    | ok header =>
      have hmap {α : Type} (x : α) :
          (Except.ok x : Except TokenFault α).mapError Refusal.invalidToken = .ok x := rfl
      simp only [hmap, bind, Except.bind]
      by_cases halgorithm : header.algorithm = a.algorithm
      · simp only [halgorithm, ne_eq, not_true_eq_false, if_false, if_true]
        cases a.checker header with
        | error fault => rfl
        | ok fits =>
          simp only [hmap]
          cases Base64.decodeChars? Base64.url s.signature with
          | none => rfl
          | some signature =>
            dsimp only
            cases fits (charBytes s.signed) signature <;> rfl
      · simp only [halgorithm, ne_eq, not_false_eq_true, if_true, if_false]
        rfl

theorem opened_signed (t : SignedToken a token) (hsound : t.key.Sound) :
    (t.key.Short → a.opened token = .ok t.payload) ∧
      (¬ t.key.Short → a.opened token = .error .wrongSignature) := by
  obtain ⟨fits, hchecker, hfits⟩ := checker_of_select? t.key_eq hsound
  have hsame := hfits (charBytes (t.headerText ++ '.' :: t.payload)) t.signature
  simp only [opened, t.segments_eq, t.header_eq, t.algorithm_eq, if_true, hchecker, t.signature_eq]
  constructor
  · intro hshort
    rw [if_pos (hsame.mpr ⟨hshort, t.fits⟩)]
  · intro hlong
    rw [if_neg fun h => hlong (hsame.mp h).1]

/-- A token opens because it is proper, or else it is turned down. -/
theorem opened_cases (hsound : a.keys.Sound) (token : String) :
    (∃ t : SignedToken a token, t.key.Short ∧ a.opened token = .ok t.payload) ∨
      ∃ r : Refusal, r.TurnsDown ∧ a.opened token = .error r := by
  cases hsegments : Segments.ofText? token with
  | none => exact .inr ⟨_, .inr ⟨.shape, rfl⟩, by simp only [opened, hsegments]⟩
  | some s =>
  obtain ⟨hchars, hsigned, hpayload, hsignature⟩ := Segments.ofText?_eq_some hsegments
  cases hheader : readHeader s.header with
  | error fault => exact .inr ⟨_, .inr ⟨fault, rfl⟩, by simp only [opened, hsegments, hheader]⟩
  | ok header =>
  by_cases halgorithm : header.algorithm = a.algorithm
  case neg =>
    refine .inr ⟨_, .inr ⟨.unexpectedAlgorithm header.algorithm, rfl⟩, ?_⟩
    simp only [opened, hsegments, hheader, halgorithm, if_false]
  cases hkey : a.keys.select? header.keyId with
  | none =>
    obtain ⟨id, hchecker⟩ := checker_of_select?_eq_none hsound hkey
    refine .inr ⟨_, .inr ⟨.unknownKey id, rfl⟩, ?_⟩
    simp only [opened, hsegments, hheader, halgorithm, if_true, hchecker]
  | some key =>
  obtain ⟨fits, hchecker, hfits⟩ := checker_of_select? hkey (hsound.select? hkey)
  cases hbytes : Base64.decodeChars? Base64.url s.signature with
  | none =>
    refine .inr ⟨_, .inl rfl, ?_⟩
    simp only [opened, hsegments, hheader, halgorithm, if_true, hchecker, hbytes]
  | some signature =>
  have hopened : a.opened token =
      if fits (charBytes s.signed) signature then .ok s.payload else .error .wrongSignature := by
    simp only [opened, hsegments, hheader, halgorithm, if_true, hchecker, hbytes]
  by_cases hfit : fits (charBytes s.signed) signature = true
  case neg => exact .inr ⟨_, .inl rfl, by rw [hopened, if_neg hfit]⟩
  obtain ⟨hshort, hfit'⟩ := (hfits _ _).mp hfit
  -- A header that could be decoded has no full stop in it, so these are all the pieces there are.
  let t : SignedToken a token :=
    { headerText := s.header, payload := s.payload, signatureText := s.signature
      pieces_eq := pieces_eq_three_iff.mpr
        ⟨hchars, dot_not_mem_of_readHeader hheader, hpayload, hsignature⟩
      header, header_eq := hheader, algorithm_eq := halgorithm
      key, key_eq := hkey, signature, signature_eq := hbytes
      fits := hsigned ▸ hfit' }
  exact .inl ⟨t, hshort, by rw [hopened, if_pos hfit]⟩

end Authority

/-- Two names agree unless both are given and differ. -/
def Agree (expected found : Option String) : Prop :=
  ∀ name ∈ expected, ∀ other ∈ found, other = name

theorem not_agree_iff {expected found : Option String} :
    (expected.isSome && found.isSome && found != expected) = true ↔ ¬ Agree expected found := by
  cases expected <;> cases found <;> simp [Agree]

instance (expected found : Option String) : Decidable (Agree expected found) :=
  inferInstanceAs (Decidable (∀ name ∈ expected, ∀ other ∈ found, other = name))

def payload? (text : List Char) : Option Json :=
  (Base64.decodeChars? Base64.url text).bind Json.read?

namespace Authority

/-- A payload's value that an authority takes for claims. Read once more, for the registered names
alone, it has a time to end and names neither another issuer nor another audience. -/
structure Takes (a : Authority) (v : Json) (c : Claims) : Prop where
  claims_eq : Claims.ofJson? v = some c
  names : ∃ r, Registered.ofJson? v = some r ∧ r.hasExpiry = true ∧ Agree a.issuer r.issuer ∧
    Agree a.audience r.audience

theorem readPayload_eq {bytes : List UInt8} {v : Json} {c : Claims} {r : Registered}
    (hread : Json.read? bytes = some v) (hclaims : Claims.ofJson? v = some c)
    (hnames : Registered.ofJson? v = some r) : a.readPayload bytes =
      if r.hasExpiry then
        if Agree a.issuer r.issuer then
          if Agree a.audience r.audience then .ok c else .error .wrongAudience
        else .error .wrongIssuer
      else .error .missingExpiry := by
  simp only [readPayload, hread, hclaims, hnames, not_agree_iff]
  cases r.hasExpiry <;> by_cases hissuer : Agree a.issuer r.issuer <;>
    by_cases haudience : Agree a.audience r.audience <;> simp [hissuer, haudience]

theorem readPayload_eq_ok_iff {bytes : List UInt8} {c : Claims} :
    a.readPayload bytes = .ok c ↔ ∃ v, Json.read? bytes = some v ∧ a.Takes v c := by
  constructor
  · intro h
    cases hread : Json.read? bytes with
    | none => simp [readPayload, hread] at h
    | some v =>
      cases hclaims : Claims.ofJson? v with
      | none => simp [readPayload, hread, hclaims] at h
      | some c' =>
        cases hnames : Registered.ofJson? v with
        | none => simp [readPayload, hread, hclaims, hnames] at h
        | some r =>
          rw [readPayload_eq hread hclaims hnames] at h
          by_cases hall : r.hasExpiry = true ∧ Agree a.issuer r.issuer ∧ Agree a.audience r.audience
          · obtain ⟨hexpiry, hissuer, haudience⟩ := hall
            rw [if_pos hexpiry, if_pos hissuer, if_pos haudience] at h
            obtain rfl := Except.ok.inj h
            exact ⟨v, rfl, hclaims, r, hnames, hexpiry, hissuer, haudience⟩
          · exact absurd h (by grind)
  · rintro ⟨v, hread, hclaims, r, hnames, hexpiry, hissuer, haudience⟩
    rw [readPayload_eq hread hclaims hnames, if_pos hexpiry, if_pos hissuer, if_pos haudience]

def Reads (a : Authority) (payload : List Char) (c : Claims) : Prop :=
  ∃ v, payload? payload = some v ∧ a.Takes v c

theorem reads_iff {payload : List Char} {c : Claims} : a.Reads payload c ↔
    ∃ bytes, Base64.decodeChars? Base64.url payload = some bytes ∧ a.readPayload bytes = .ok c := by
  simp only [Reads, payload?, Option.bind_eq_some_iff, readPayload_eq_ok_iff]
  constructor
  · rintro ⟨v, ⟨bytes, hbytes, hread⟩, htakes⟩
    exact ⟨bytes, hbytes, v, hread, htakes⟩
  · rintro ⟨bytes, hbytes, v, hread, htakes⟩
    exact ⟨v, ⟨bytes, hbytes, hread⟩, htakes⟩

theorem judge_of_reads {payload : List Char} {c : Claims} (h : a.Reads payload c) (now : Instant) :
    a.judge now payload = (a.checkWindow now c).map fun _ => c := by
  obtain ⟨bytes, hbytes, hpayload⟩ := reads_iff.mp h
  have hmap : (Except.ok c : Except TokenFault Claims).mapError Refusal.invalidToken = .ok c := rfl
  rw [judge, hbytes]
  simp only [hpayload, hmap, bind, Except.bind]
  cases a.checkWindow now c <;> rfl

theorem judge_of_not_reads {payload : List Char} (h : ∀ c, ¬ a.Reads payload c) :
    ∃ r : Refusal, r.TurnsDown ∧ ∀ now, a.judge now payload = .error r := by
  cases hbytes : Base64.decodeChars? Base64.url payload with
  | none =>
    refine ⟨_, .inl rfl, ?_⟩
    intro now
    rw [judge, hbytes]
    rfl
  | some bytes =>
    cases hpayload : a.readPayload bytes with
    | ok c => exact absurd (reads_iff.mpr ⟨bytes, hbytes, hpayload⟩) (h c)
    | error fault =>
      refine ⟨_, .inr ⟨fault, rfl⟩, ?_⟩
      intro now
      rw [judge, hbytes]
      simp only [hpayload]
      rfl

theorem judge_eq_ok_iff {payload : List Char} {now : Instant} {c : Claims} :
    a.judge now payload = .ok c ↔ a.Reads payload c ∧ a.checkWindow now c = .ok () := by
  constructor
  · intro h
    by_cases hreads : ∃ c', a.Reads payload c'
    · obtain ⟨c', hreads⟩ := hreads
      rw [judge_of_reads hreads] at h
      obtain ⟨_, hwindow, rfl⟩ := Except.map_eq_ok_iff.mp h
      exact ⟨hreads, hwindow⟩
    · obtain ⟨r, -, hjudge⟩ := judge_of_not_reads (not_exists.mp hreads)
      cases (hjudge now).symm.trans h
  · rintro ⟨hreads, hwindow⟩
    rw [judge_of_reads hreads, hwindow]
    rfl

theorem verify_signed (t : SignedToken a token) (hsound : t.key.Sound) (hshort : t.key.Short)
    {c : Claims} (h : a.Reads t.payload c) (now : Instant) :
    a.verify now token = (a.checkWindow now c).map fun _ => c := by
  rw [verify_eq, (opened_signed t hsound).1 hshort]
  exact judge_of_reads h now

theorem verify_signed_of_long (t : SignedToken a token) (hsound : t.key.Sound)
    (hlong : ¬ t.key.Short) (now : Instant) : a.verify now token = .error .wrongSignature := by
  rw [verify_eq, (opened_signed t hsound).2 hlong]
  rfl

/-- A token that holds claims at an authority: it is signed as it should be, with a key that can be
checked with, over a payload that the authority takes for the claims. -/
def Holds (a : Authority) (token : String) (c : Claims) : Prop :=
  ∃ t : SignedToken a token, t.key.Short ∧ a.Reads t.payload c

theorem verify_of_holds (hsound : a.keys.Sound) {c : Claims} (h : a.Holds token c) (now : Instant) :
    a.verify now token = (a.checkWindow now c).map fun _ => c := by
  obtain ⟨t, hshort, hreads⟩ := h
  exact verify_signed t (hsound.select? t.key_eq) hshort hreads now

/-- Whatever else is wrong with a token, it is always the same, and never that its time is over. -/
theorem verify_of_not_holds (hsound : a.keys.Sound) (h : ∀ c, ¬ a.Holds token c) :
    ∃ r : Refusal, r.TurnsDown ∧ ∀ now, a.verify now token = .error r := by
  rcases opened_cases hsound token with ⟨t, hshort, hopened⟩ | ⟨r, hturns, hopened⟩
  · obtain ⟨r, hturns, hjudge⟩ := judge_of_not_reads fun c hreads => h c ⟨t, hshort, hreads⟩
    refine ⟨r, hturns, ?_⟩
    intro now
    rw [verify_eq, hopened]
    exact hjudge now
  · refine ⟨r, hturns, ?_⟩
    intro now
    rw [verify_eq, hopened]
    rfl

/-- A sum in 64 bits is the sum, unless it leaves them. -/
theorem toInt_add_ofInt {word : Int64} {n : Int} (hleast : -2 ^ 63 ≤ word.toInt + n)
    (hgreatest : word.toInt + n < 2 ^ 63) : (word + Int64.ofInt n).toInt = word.toInt + n := by
  have hsum := Int64.toInt_ofInt_of_le hleast hgreatest
  rwa [Int64.ofInt_add, Int64.ofInt_toInt] at hsum

theorem toInt_lastSecond {c : Claims} (hleast : -2 ^ 63 ≤ c.expiresAt.toInt + a.leeway)
    (hgreatest : c.expiresAt.toInt + a.leeway < 2 ^ 63) :
    (a.lastSecond c).toInt = c.expiresAt.toInt + a.leeway :=
  toInt_add_ofInt hleast hgreatest

theorem checkWindow_eq_ok_iff {now : Instant} {c : Claims} : a.checkWindow now c = .ok () ↔
    c.issuedAt.toInt ≤ now.seconds + a.leeway ∧ now.seconds ≤ (a.lastSecond c).toInt := by
  unfold checkWindow
  split
  · simp; omega
  · split <;> simp <;> omega

theorem checkWindow_eq_expired_iff {now : Instant} {c : Claims} :
    a.checkWindow now c = .error .expired ↔
      c.issuedAt.toInt ≤ now.seconds + a.leeway ∧ (a.lastSecond c).toInt < now.seconds := by
  unfold checkWindow
  split
  · simp; omega
  · split <;> simp <;> omega

end Authority

end Token

end SessionGate
