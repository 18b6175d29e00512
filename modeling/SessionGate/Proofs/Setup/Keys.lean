import Mathlib.Data.List.Forall2
import SessionGate.Proofs.Token.Issue
import SessionGate.Setup.Authority

/-!
Keys that were set up belong together: the key that signs is the first that is published, and no
retired key takes its id. Every entry that is published spells out a key that was read and can work.
When a private key with its retired keys is set up at all is `asymmetricKeys_eq_ok_iff`.
-/

namespace SessionGate.Setup

open Token

/-- What is read and then checked passes its check. -/
theorem of_checked {α : Type} (passes : α → Prop) [DecidablePred passes] (found : Option α) {key : α}
    (h : (found.bind fun key => if passes key then some key else none) = some key) : passes key := by
  obtain ⟨read, -, hread⟩ := Option.bind_eq_some_iff.mp h
  obtain ⟨hpasses, heq⟩ := Option.ite_none_right_eq_some.mp hread
  exact Option.some.inj heq ▸ hpasses

theorem sound_of_ofPem? {pem : String} {key : Rsa.PrivateKey}
    (h : Rsa.PrivateKey.ofPem? pem = some key) : key.Sound := by
  unfold Rsa.PrivateKey.ofPem? at h
  obtain ⟨armour, -, h⟩ := Option.bind_eq_some_iff.mp h
  obtain ⟨value, -, h⟩ := Option.bind_eq_some_iff.mp h
  dsimp only at h
  split at h
  · exact of_checked _ _ h
  · split at h
    · exact of_checked _ _ h
    · exact of_checked _ none h

theorem sound_of_publicOfPem? {pem : String} {key : Rsa.PublicKey}
    (h : Rsa.PublicKey.ofPem? pem = some key) : key.Sound ∧ key.bits ≤ Rsa.greatestBits := by
  unfold Rsa.PublicKey.ofPem? at h
  obtain ⟨armour, -, h⟩ := Option.bind_eq_some_iff.mp h
  obtain ⟨value, -, h⟩ := Option.bind_eq_some_iff.mp h
  dsimp only at h
  have hchecked := of_checked (fun key : Rsa.PublicKey => key.Sound ∧ key.bits ≤ Rsa.greatestBits)
  split at h
  · exact hchecked _ h
  · split at h
    · exact hchecked _ h
    · exact hchecked none h

theorem sharedKeys_eq_ok {secret : List UInt8} {keys : Keys} (h : sharedKeys secret = .ok keys) :
    keys = .shared secret := by
  unfold sharedKeys at h
  split at h
  · cases h
  · exact (Except.ok.inj h).symm

/-- What is published of a retired key: the key in its text, under its id. -/
def Spells (given : String × String) (entry : PublishedKey) : Prop :=
  ∃ key, Rsa.PublicKey.ofPem? given.2 = some key ∧ entry = .ofKey given.1 key

theorem ids_of_spells {retired : List (String × String)} {entries : List PublishedKey}
    (h : List.Forall₂ Spells retired entries) : entries.map (·.id) = retired.map Prod.fst := by
  induction h with
  | nil => rfl
  | cons hfirst _ ih =>
    obtain ⟨key, -, rfl⟩ := hfirst
    exact congrArg _ ih

/-- Every retired key is published, and nothing else is with them. -/
theorem exists_of_spells {retired : List (String × String)} {entries : List PublishedKey}
    (h : List.Forall₂ Spells retired entries) :
    (∀ given ∈ retired, ∃ entry ∈ entries, Spells given entry) ∧
      ∀ entry ∈ entries, ∃ given ∈ retired, Spells given entry := by
  induction h with
  | nil => exact ⟨nofun, nofun⟩
  | cons hfirst _ ih =>
    rw [List.forall_mem_cons, List.forall_mem_cons]
    refine ⟨⟨⟨_, List.mem_cons_self, hfirst⟩, ?_⟩, ⟨_, List.mem_cons_self, hfirst⟩, ?_⟩
    · intro given hgiven
      obtain ⟨entry, hentry, hspells⟩ := ih.1 given hgiven
      exact ⟨entry, List.mem_cons_of_mem _ hentry, hspells⟩
    · intro entry hentry
      obtain ⟨given, hgiven, hspells⟩ := ih.2 entry hentry
      exact ⟨given, List.mem_cons_of_mem _ hgiven, hspells⟩

theorem nodup_ofKey (id : String) (key : Rsa.PublicKey) :
    ([PublishedKey.ofKey id key].map (·.id)).Nodup :=
  List.nodup_cons.mpr ⟨List.not_mem_nil, List.nodup_nil⟩

/-- Retired keys are published in their order, if all can be read and no id comes twice. -/
theorem publish_eq_ok_iff {published all : List PublishedKey} {retired : List (String × String)}
    (hnodup : (published.map (·.id)).Nodup) : publish published retired = .ok all ↔
      ∃ entries, List.Forall₂ Spells retired entries ∧ all = published ++ entries ∧
        (all.map (·.id)).Nodup := by
  induction retired generalizing published with
  | nil =>
    constructor
    · intro h
      obtain rfl := Except.ok.inj h
      exact ⟨[], .nil, (List.append_nil _).symm, hnodup⟩
    · rintro ⟨entries, hspells, rfl, -⟩
      cases hspells
      rw [List.append_nil]
      rfl
  | cons given rest ih =>
    obtain ⟨id, pem⟩ := given
    have htaken_iff : published.any (·.id = id) ↔ id ∈ published.map (·.id) := by
      simp [List.any_eq_true]
    unfold publish
    split
    · next htaken =>
      refine iff_of_false nofun ?_
      rintro ⟨entries, hspells, rfl, hall⟩
      have hmem : id ∈ entries.map (·.id) := by
        rw [ids_of_spells hspells]
        exact List.mem_cons_self
      rw [List.map_append] at hall
      exact (List.nodup_append.mp hall).2.2 id (htaken_iff.mp htaken) id hmem rfl
    · next hfresh =>
      cases hkey : Rsa.PublicKey.ofPem? pem with
      | none =>
        refine iff_of_false nofun ?_
        rintro ⟨entries, hspells, -⟩
        obtain ⟨entry, more, ⟨key, hread, -⟩, -⟩ := List.forall₂_cons_left_iff.mp hspells
        cases hkey.symm.trans hread
      | some key =>
        have hmore : ((published ++ [PublishedKey.ofKey id key]).map (·.id)).Nodup := by
          rw [List.map_append]
          refine List.nodup_append.mpr ⟨hnodup, nodup_ofKey id key, ?_⟩
          intro other hother last hlast heq
          obtain rfl : last = id := List.mem_singleton.mp hlast
          exact hfresh (htaken_iff.mpr (heq ▸ hother))
        rw [ih hmore]
        constructor
        · rintro ⟨entries, hspells, rfl, hall⟩
          exact ⟨_, .cons ⟨key, hkey, rfl⟩ hspells, List.append_assoc .., hall⟩
        · rintro ⟨entries, hspells, rfl, hall⟩
          obtain ⟨entry, more, ⟨key', hread, rfl⟩, hrest, rfl⟩ := List.forall₂_cons_left_iff.mp hspells
          obtain rfl := Option.some.inj (hkey.symm.trans hread)
          exact ⟨more, hrest, List.append_cons .., hall⟩

theorem asymmetricKeys_eq (pem id : String) (retired : List (String × String)) :
    asymmetricKeys pem id retired =
      if id = "" then .error (.config .noKeyId)
      else match Rsa.PrivateKey.ofPem? pem with
        | none => .error (.key .privateKey)
        | some signing =>
          if Pem.hasEarlierOpening pem then .error (.key .unusable)
          else (publish [PublishedKey.ofKey id signing.toPublic] retired).map fun all =>
            .asymmetric id signing { keys := all } := by
  unfold asymmetricKeys
  by_cases hid : id = ""
  · rw [if_pos hid, if_pos hid]
    rfl
  rw [if_neg hid, if_neg hid]
  cases Rsa.PrivateKey.ofPem? pem with
  | none => rfl
  | some signing => cases Pem.hasEarlierOpening pem <;> rfl

/-- Keys are set up exactly where there is an id for the signing key, no id comes twice, and every text
has a key that can be read. -/
theorem asymmetricKeys_eq_ok_iff {pem id : String} {retired : List (String × String)} {keys : Keys} :
    asymmetricKeys pem id retired = .ok keys ↔ id ≠ "" ∧ Pem.hasEarlierOpening pem = false ∧
      (id :: retired.map Prod.fst).Nodup ∧ ∃ signing entries, Rsa.PrivateKey.ofPem? pem = some signing ∧
        List.Forall₂ Spells retired entries ∧
        keys = .asymmetric id signing { keys := .ofKey id signing.toPublic :: entries } := by
  rw [asymmetricKeys_eq]
  constructor
  · intro h
    split at h
    · cases h
    next hid =>
    split at h
    · cases h
    next signing hsigning =>
    split at h
    · cases h
    next hopening =>
    cases hall : publish [PublishedKey.ofKey id signing.toPublic] retired with
    | error fault =>
      rw [hall] at h
      cases h
    | ok all =>
      rw [hall] at h
      obtain rfl := Except.ok.inj h
      obtain ⟨entries, hspells, rfl, hnodup⟩ := (publish_eq_ok_iff (nodup_ofKey id _)).mp hall
      rw [List.map_append, ids_of_spells hspells] at hnodup
      exact ⟨hid, eq_false_of_ne_true hopening, hnodup, signing, entries, hsigning, hspells, rfl⟩
  · rintro ⟨hid, hopening, hnodup, signing, entries, hsigning, hspells, rfl⟩
    have hall : publish [PublishedKey.ofKey id signing.toPublic] retired =
        .ok (.ofKey id signing.toPublic :: entries) := by
      refine (publish_eq_ok_iff (nodup_ofKey id _)).mpr ⟨entries, hspells, rfl, ?_⟩
      rwa [List.map_cons, ids_of_spells hspells]
    rw [if_neg hid, hsigning]
    simp only [hopening, hall]
    rfl

/-- A fault of what is configured: of the ids and files it names, or of the keys in them. -/
def Fault.IsOfKeys (fault : Fault) : Prop := (∃ f, fault = .config f) ∨ ∃ f, fault = .key f

theorem isOfKeys_of_publish {published : List PublishedKey} {retired : List (String × String)}
    {fault : Fault} (h : publish published retired = .error fault) : fault.IsOfKeys := by
  induction retired generalizing published with
  | nil => cases h
  | cons given rest ih =>
    unfold publish at h
    split at h
    · obtain rfl := Except.error.inj h
      exact .inl ⟨_, rfl⟩
    · cases hkey : Rsa.PublicKey.ofPem? given.2 with
      | none =>
        rw [hkey] at h
        obtain rfl := Except.error.inj h
        exact .inr ⟨_, rfl⟩
      | some key =>
        rw [hkey] at h
        exact ih h

theorem isOfKeys_of_asymmetricKeys {pem id : String} {retired : List (String × String)} {fault : Fault}
    (h : asymmetricKeys pem id retired = .error fault) : fault.IsOfKeys := by
  rw [asymmetricKeys_eq] at h
  split at h
  · obtain rfl := Except.error.inj h
    exact .inl ⟨_, rfl⟩
  split at h
  · obtain rfl := Except.error.inj h
    exact .inr ⟨_, rfl⟩
  next signing _ =>
  split at h
  · obtain rfl := Except.error.inj h
    exact .inr ⟨_, rfl⟩
  cases hall : publish [PublishedKey.ofKey id signing.toPublic] retired with
  | ok all =>
    rw [hall] at h
    cases h
  | error fault' =>
    rw [hall] at h
    obtain rfl := Except.error.inj h
    exact isOfKeys_of_publish hall

theorem consistent_sharedKeys {secret : List UInt8} {keys : Keys}
    (h : sharedKeys secret = .ok keys) : keys.Consistent := by
  rw [sharedKeys_eq_ok h]
  trivial

theorem consistent_asymmetricKeys {pem id : String} {retired : List (String × String)} {keys : Keys}
    (h : asymmetricKeys pem id retired = .ok keys) : keys.Consistent := by
  obtain ⟨-, -, -, signing, entries, hsigning, -, rfl⟩ := asymmetricKeys_eq_ok_iff.mp h
  exact ⟨sound_of_ofPem? hsigning, List.find?_cons_of_pos (decide_eq_true rfl)⟩

theorem sound_sharedKeys {secret : List UInt8} {keys : Keys}
    (h : sharedKeys secret = .ok keys) : keys.Sound := by
  rw [sharedKeys_eq_ok h]
  trivial

theorem sound_asymmetricKeys {pem id : String} {retired : List (String × String)} {keys : Keys}
    (h : asymmetricKeys pem id retired = .ok keys) : keys.Sound := by
  obtain ⟨-, -, -, signing, entries, hsigning, hspells, rfl⟩ := asymmetricKeys_eq_ok_iff.mp h
  intro entry hmem
  rcases List.mem_cons.mp hmem with rfl | hretired
  · exact ⟨_, PublishedKey.key?_ofKey .., (sound_of_ofPem? hsigning).public_sound⟩
  · obtain ⟨given, -, key, hread, rfl⟩ := (exists_of_spells hspells).2 entry hretired
    exact ⟨_, PublishedKey.key?_ofKey .., (sound_of_publicOfPem? hread).1⟩

theorem keys_authority {keys : Keys} {issuer audience : Option String} {leeway : Int}
    {a : Authority} (h : authority keys issuer audience leeway = .ok a) : a.keys = keys := by
  unfold authority at h
  cases hskew : skew leeway with
  | error fault =>
    rw [hskew] at h
    cases h
  | ok told =>
    rw [hskew] at h
    obtain rfl := Except.ok.inj h
    rfl

theorem consistent_authority {keys : Keys} {issuer audience : Option String} {leeway : Int}
    {a : Authority} (hkeys : keys.Consistent) (h : authority keys issuer audience leeway = .ok a) :
    a.keys.Consistent := by
  rwa [keys_authority h]

theorem sound_authority {keys : Keys} {issuer audience : Option String} {leeway : Int}
    {a : Authority} (hkeys : keys.Sound) (h : authority keys issuer audience leeway = .ok a) :
    a.keys.Sound := by
  rwa [keys_authority h]

end SessionGate.Setup
