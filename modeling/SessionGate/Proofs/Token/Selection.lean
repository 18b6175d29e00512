import SessionGate.Lookup
import SessionGate.Proofs.Token.Issue

/-!
Which of the published keys a token is checked with. Its header selects a key by its id, or the active
one without an id; an id that is not published is told to be unknown, and no other fault is. The keys may
be put into a map beforehand, entry by entry: looking there finds what looking through the entries does.
-/

namespace SessionGate.Token

/-- A token in parts, with a header for published keys that selects one of them by its id. -/
def Selects (active token : String) (s : Segments) (id : String) : Prop :=
  Segments.ofText? token = some s ∧ ∃ h, Authority.readHeader s.header = .ok h ∧
    h.algorithm = .rs256 ∧ h.keyId.getD active = id

/-- Every id can be selected. -/
theorem exists_selects (active id : String) : ∃ token s, Selects active token s id := by
  let h : Header := { algorithm := .rs256, keyId := some id }
  exact ⟨_, _, Segments.ofText?_ofList (encodeJson h.toJson) [] [] List.not_mem_nil List.not_mem_nil,
    h, Authority.readHeader_encodeJson h, rfl, rfl⟩

/-- The last segment is a signature of all before it under a key. -/
def Segments.isSignedUnder (s : Segments) (key : Rsa.PublicKey) : Bool :=
  (Base64.decodeChars? Base64.url s.signature).any fun signature =>
    key.accepts (charBytes s.signed) signature

/-- An entry spells out the numbers of a key, in big-endian bytes. -/
structure PublishedKey.Describes (entry : PublishedKey) (key : Rsa.PublicKey) : Prop where
  modulus_eq : (Base64.decode? Base64.url entry.modulus).map Der.natOfBytes = some key.modulus
  exponent_eq : (Base64.decode? Base64.url entry.exponent).map Der.natOfBytes = some key.exponent

theorem PublishedKey.describes_iff {entry : PublishedKey} {key : Rsa.PublicKey} :
    entry.Describes key ↔ entry.key? = some key := by
  obtain ⟨modulus, exponent⟩ := key
  unfold key?
  constructor
  · rintro ⟨hmodulus, hexponent⟩
    obtain ⟨bytes, hbytes, rfl⟩ := Option.map_eq_some_iff.mp hmodulus
    obtain ⟨bytes', hbytes', rfl⟩ := Option.map_eq_some_iff.mp hexponent
    rw [hbytes, hbytes']
    rfl
  · intro h
    obtain ⟨bytes, hbytes, h⟩ := Option.bind_eq_some_iff.mp h
    obtain ⟨bytes', hbytes', h⟩ := Option.bind_eq_some_iff.mp h
    obtain ⟨rfl, rfl⟩ := Rsa.PublicKey.mk.inj (Option.some.inj h)
    exact ⟨by rw [hbytes]; rfl, by rw [hbytes']; rfl⟩

namespace KeySet

/-- Where no id comes twice, an entry is found under its id. -/
theorem find?_eq_some_iff {s : KeySet} (hnodup : (s.keys.map (·.id)).Nodup) {id : String}
    {entry : PublishedKey} : s.find? id = some entry ↔ entry ∈ s.keys ∧ entry.id = id := by
  constructor
  · intro h
    unfold find? at h
    exact ⟨List.mem_of_find?_eq_some h, by simpa using List.find?_some h⟩
  · rintro ⟨hmem, hid⟩
    obtain ⟨before, after, hkeys⟩ := List.append_of_mem hmem
    refine List.find?_eq_some_iff_append.mpr ⟨decide_eq_true hid, before, after, hkeys, ?_⟩
    intro other hother
    rw [hkeys, List.map_append] at hnodup
    have hne : other.id ≠ entry.id := (List.nodup_append.mp hnodup).2.2 other.id
      (List.mem_map_of_mem hother) entry.id List.mem_cons_self
    simpa [hid] using hne

/-- The keys that entries spell out, put into a map of keys by their ids. An id that is there already is
given its new key. -/
def fill (keys : List (String × Rsa.PublicKey)) :
    List PublishedKey → Option (List (String × Rsa.PublicKey))
  | [] => some keys
  | entry :: rest => do
    fill ((entry.id, ← entry.key?) :: keys.filter (·.1 ≠ entry.id)) rest

def keysById? (s : KeySet) : Option (List (String × Rsa.PublicKey)) := fill [] s.keys

theorem lookup_fill {entries : List PublishedKey} (hnodup : (entries.map (·.id)).Nodup)
    {keys all : List (String × Rsa.PublicKey)} (h : fill keys entries = some all) (id : String) :
    all.lookup id = match entries.find? (·.id = id) with
      | some entry => entry.key?
      | none => keys.lookup id := by
  induction entries generalizing keys with
  | nil =>
    obtain rfl := Option.some.inj h
    rfl
  | cons entry rest ih =>
    obtain ⟨key, hkey, h⟩ := Option.bind_eq_some_iff.mp h
    obtain ⟨hfresh, hrest⟩ := List.nodup_cons.mp hnodup
    rw [ih hrest h, List.lookup_cons]
    by_cases hid : entry.id = id
    · have hfirst : (entry :: rest).find? (·.id = id) = some entry :=
        List.find?_cons_of_pos (decide_eq_true hid)
      have hnone : rest.find? (·.id = id) = none := by
        rw [List.find?_eq_none]
        intro other hother heq
        exact hfresh (List.mem_map.mpr ⟨other, hother, (of_decide_eq_true heq).trans hid.symm⟩)
      rw [hfirst, hnone, hid, beq_self_eq_true]
      exact hkey.symm
    · have hlater : (entry :: rest).find? (·.id = id) = rest.find? (·.id = id) :=
        List.find?_cons_of_neg (by simpa using hid)
      rw [hlater, lookup_filter_ne, if_neg (Ne.symm hid), beq_eq_false_iff_ne.mpr (Ne.symm hid)]

/-- In a map of entries with an id each, an id has the key that its entry spells out. -/
theorem lookup_keysById {s : KeySet} (hnodup : (s.keys.map (·.id)).Nodup)
    {keys : List (String × Rsa.PublicKey)} (h : s.keysById? = some keys) (id : String) :
    keys.lookup id = (s.find? id).bind PublishedKey.key? := by
  rw [lookup_fill hnodup h, find?]
  cases s.keys.find? (·.id = id) <;> rfl

theorem exists_fill {entries : List PublishedKey} (h : ∀ entry ∈ entries, ∃ key, entry.key? = some key)
    (keys : List (String × Rsa.PublicKey)) : ∃ all, fill keys entries = some all := by
  induction entries generalizing keys with
  | nil => exact ⟨keys, rfl⟩
  | cons entry rest ih =>
    rw [List.forall_mem_cons] at h
    obtain ⟨⟨key, hkey⟩, hrest⟩ := h
    obtain ⟨all, hall⟩ := ih hrest ((entry.id, key) :: keys.filter (·.1 ≠ entry.id))
    exact ⟨all, Option.bind_eq_some_iff.mpr ⟨key, hkey, hall⟩⟩

/-- If every entry spells out a key, the map has the ids of the entries. -/
theorem lookup_keysById_iff {s : KeySet} (hnodup : (s.keys.map (·.id)).Nodup)
    (hspelt : ∀ entry ∈ s.keys, ∃ key, entry.key? = some key) {keys : List (String × Rsa.PublicKey)}
    (h : s.keysById? = some keys) (id : String) :
    (∃ key, keys.lookup id = some key) ↔ id ∈ s.keys.map (·.id) := by
  rw [lookup_keysById hnodup h, List.mem_map]
  constructor
  · rintro ⟨key, hkey⟩
    obtain ⟨entry, hfind, -⟩ := Option.bind_eq_some_iff.mp hkey
    exact ⟨entry, (find?_eq_some_iff hnodup).mp hfind⟩
  · rintro ⟨entry, hmem, hid⟩
    obtain ⟨key, hkey⟩ := hspelt entry hmem
    exact ⟨key, by rw [(find?_eq_some_iff hnodup).mpr ⟨hmem, hid⟩]; exact hkey⟩

end KeySet

namespace Authority

variable {a : Authority} {active : String} {signing : Rsa.PrivateKey} {published : KeySet}
  {token id : String} {s : Segments}

theorem readHeader_ne_unknownKey {chars : List Char} {fault : TokenFault}
    (h : readHeader chars = .error fault) : fault ≠ .unknownKey id := by
  unfold readHeader at h
  split at h
  · obtain rfl := Except.error.inj h
    exact nofun
  · split at h
    · cases h
    · obtain rfl := Except.error.inj h
      exact nofun

theorem readPayload_ne_unknownKey {bytes : List UInt8} {fault : TokenFault}
    (h : a.readPayload bytes = .error fault) : fault ≠ .unknownKey id := by
  unfold readPayload at h
  repeat' split at h
  all_goals
    cases h
    try exact nofun

theorem judge_ne_unknownKey (now : Instant) (payload : List Char) :
    a.judge now payload ≠ .error (.invalidToken (.unknownKey id)) := by
  intro h
  by_cases hreads : ∃ c, a.Reads payload c
  · obtain ⟨c, hreads⟩ := hreads
    rw [judge_of_reads hreads] at h
    unfold checkWindow at h
    repeat' split at h
    all_goals cases h
  · unfold judge at h
    cases hbytes : Base64.decodeChars? Base64.url payload with
    | none =>
      rw [hbytes] at h
      cases h
    | some bytes =>
      cases hread : a.readPayload bytes with
      | ok c => exact hreads ⟨c, reads_iff.mpr ⟨bytes, hbytes, hread⟩⟩
      | error fault =>
        simp only [hbytes, hread] at h
        exact readPayload_ne_unknownKey hread (Refusal.invalidToken.inj (Except.error.inj h))

/-- How a token opens that selects a key by an id. -/
theorem opened_selects (hkeys : a.keys = .asymmetric active signing published)
    (hselects : Selects active token s id) : a.opened token = match published.find? id with
      | none => .error (.invalidToken (.unknownKey id))
      | some entry =>
        if entry.key?.any s.isSignedUnder then .ok s.payload else .error .wrongSignature := by
  obtain ⟨hsegments, h, hheader, halgorithm, rfl⟩ := hselects
  have hsame : a.algorithm = .rs256 := by
    rw [algorithm, hkeys]
  simp only [opened, hsegments, hheader, halgorithm, hsame, if_true, checker, hkeys]
  cases published.find? (h.keyId.getD active) with
  | none => rfl
  | some entry =>
    unfold Segments.isSignedUnder
    cases hkey : entry.key? <;> cases Base64.decodeChars? Base64.url s.signature <;> simp [hkey]

theorem selects_of_opened (hkeys : a.keys = .asymmetric active signing published)
    (hopened : a.opened token = .error (.invalidToken (.unknownKey id))) :
    (∃ s, Selects active token s id) ∧ published.find? id = none := by
  have hsame : a.algorithm = .rs256 := by
    rw [algorithm, hkeys]
  cases hsegments : Segments.ofText? token with
  | none => simp [opened, hsegments] at hopened
  | some s =>
  cases hheader : readHeader s.header with
  | error fault =>
    simp only [opened, hsegments, hheader] at hopened
    exact absurd (Refusal.invalidToken.inj (Except.error.inj hopened)) (readHeader_ne_unknownKey hheader)
  | ok h =>
  by_cases halgorithm : h.algorithm = .rs256
  case neg => simp [opened, hsegments, hheader, hsame, halgorithm] at hopened
  have hselects : Selects active token s (h.keyId.getD active) :=
    ⟨hsegments, h, hheader, halgorithm, rfl⟩
  rw [opened_selects hkeys hselects] at hopened
  cases hfind : published.find? (h.keyId.getD active) with
  | some entry =>
    rw [hfind] at hopened
    dsimp only at hopened
    split at hopened <;> cases hopened
  | none =>
    rw [hfind] at hopened
    obtain rfl := TokenFault.unknownKey.inj (Refusal.invalidToken.inj (Except.error.inj hopened))
    exact ⟨⟨s, hselects⟩, hfind⟩

/-- An id is told to be unknown exactly where a token selects it and it is not published. -/
theorem verify_eq_unknownKey_iff (hkeys : a.keys = .asymmetric active signing published)
    (now : Instant) : a.verify now token = .error (.invalidToken (.unknownKey id)) ↔
      (∃ s, Selects active token s id) ∧ published.find? id = none := by
  rw [verify_eq]
  constructor
  · intro h
    cases hopened : a.opened token with
    | ok payload =>
      rw [hopened] at h
      exact absurd h (judge_ne_unknownKey now payload)
    | error r =>
      rw [hopened] at h
      obtain rfl := Except.error.inj h
      exact selects_of_opened hkeys hopened
  · rintro ⟨⟨s, hselects⟩, hnone⟩
    rw [opened_selects hkeys hselects, hnone]
    rfl

/-- An id is published exactly if no token is refused for it being unknown. -/
theorem published_iff (hkeys : a.keys = .asymmetric active signing published) (id : String) :
    (∃ entry, published.find? id = some entry) ↔
      ∀ now token, a.verify now token ≠ .error (.invalidToken (.unknownKey id)) := by
  constructor
  · rintro ⟨entry, hfind⟩ now token h
    cases hfind.symm.trans ((verify_eq_unknownKey_iff hkeys now).mp h).2
  · intro h
    obtain ⟨token, s, hselects⟩ := exists_selects active id
    rw [← Option.ne_none_iff_exists']
    intro hnone
    exact h ⟨0⟩ token ((verify_eq_unknownKey_iff hkeys _).mpr ⟨⟨s, hselects⟩, hnone⟩)

/-- A token that selects an entry is checked with the key that the entry spells out. -/
theorem verify_selects (hkeys : a.keys = .asymmetric active signing published)
    (hselects : Selects active token s id) {entry : PublishedKey}
    (hfind : published.find? id = some entry) {key : Rsa.PublicKey} (hkey : entry.key? = some key)
    (now : Instant) : a.verify now token =
      if s.isSignedUnder key then a.judge now s.payload else .error .wrongSignature := by
  rw [verify_eq, opened_selects hkeys hselects, hfind]
  simp only [hkey, Option.any_some]
  split <;> rfl

end Authority

end SessionGate.Token
