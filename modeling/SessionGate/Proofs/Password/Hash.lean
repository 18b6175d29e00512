import SessionGate.Password.Hash
import SessionGate.Proofs.Encoding.Base64

/-!
Stored hashes read back, and a new hash is opened by the password that it was made for.
-/

namespace SessionGate

namespace Password

theorem dollar_not_mem_encode (bytes : List UInt8) :
    '$' ∉ (Base64.encode Base64.crypt bytes).toList := by
  intro h
  have hmem : '$' ∈ Base64.crypt.chars := Base64.mem_chars_of_mem_encode h
  revert hmem
  decide +kernel

def costText (cost : Nat) : String :=
  if cost < 10 then "0" ++ Nat.repr cost else Nat.repr cost

theorem costText_spec : ∀ cost < 32, leastCost ≤ cost → cost? (costText cost) = some cost ∧
    '$' ∉ (costText cost).toList ∧ (costText cost).toList ≠ [] := by
  decide +kernel

theorem Hash.toList_toString (h : Hash) : h.toString.toList =
    [] ++ '$' :: (['2', 'b'] ++ '$' :: ((costText h.cost).toList ++ '$' ::
      ((Base64.encode Base64.crypt h.salt).toList ++
        (Base64.encode Base64.crypt h.digest).toList))) := by
  simp [Hash.toString, costText]

theorem Hash.ofString?_toString {h : Hash} (hleast : leastCost ≤ h.cost)
    (hgreatest : h.cost ≤ greatestCost) (hsalt : h.salt.length = 16)
    (hdigest : h.digest.length = 23) : Hash.ofString? h.toString = some h := by
  obtain ⟨hcost, hdollar, hempty⟩ := costText_spec h.cost (Nat.lt_succ_of_le hgreatest) hleast
  have hlengthSalt : (Base64.encode Base64.crypt h.salt).toList.length = 22 := by
    rw [Base64.length_encode, hsalt]
  have hlengthDigest : (Base64.encode Base64.crypt h.digest).toList.length = 31 := by
    rw [Base64.length_encode, hdigest]
  have htail : '$' ∉ (Base64.encode Base64.crypt h.salt).toList ++
      (Base64.encode Base64.crypt h.digest).toList := by
    rw [List.mem_append, not_or]
    exact ⟨dollar_not_mem_encode _, dollar_not_mem_encode _⟩
  have hpieces : (Text.pieces '$' h.toString.toList).filter (· ≠ []) =
      [['2', 'b'], (costText h.cost).toList, (Base64.encode Base64.crypt h.salt).toList ++
        (Base64.encode Base64.crypt h.digest).toList] := by
    rw [h.toList_toString, Text.pieces_append (by decide), Text.pieces_append (by decide),
      Text.pieces_append hdollar, Text.pieces_of_not_mem htail]
    have hne : (Base64.encode Base64.crypt h.salt).toList ≠ [] := by
      intro hnil
      rw [hnil] at hlengthSalt
      cases hlengthSalt
    simp [hempty, hne]
  rw [Hash.ofString?, hpieces]
  have hversion : ¬(String.ofList ['2', 'b'] ∉ versions ∨
      ((Base64.encode Base64.crypt h.salt).toList ++
        (Base64.encode Base64.crypt h.digest).toList).length ≠ 53) := by
    rw [List.length_append, hlengthSalt, hlengthDigest]
    decide
  dsimp only
  rw [if_neg hversion, List.take_left' hlengthSalt, List.drop_left' hlengthSalt,
    Base64.decodeChars?_encode, Base64.decodeChars?_encode, String.ofList_toList, hcost]
  rfl

theorem length_digest (cost : Nat) (salt : List UInt8) (password : String) :
    (digest cost salt password).length = 23 := by
  have hblocks : plaintext.length = 3 := by
    decide +kernel
  simp [digest, List.length_flatMap, hblocks, List.map_const', Function.comp_def]

/-- What a password may be hashed to: its hash under some salt. -/
def Hashed (password stored : String) : Prop :=
  ∃ salt : List UInt8, salt.length = 16 ∧ stored = hash password salt

/-- A new hash is a fixed beginning and fifty-three characters of one alphabet. -/
theorem Hashed.exists_tail {password stored : String} (h : Hashed password stored) :
    ∃ tail, stored.toList = '$' :: (['2', 'b'] ++ '$' :: (['1', '2'] ++ '$' :: tail)) ∧
      tail.length = 53 ∧ ∀ c ∈ tail, c ∈ Base64.crypt.chars := by
  obtain ⟨salt, hsalt, rfl⟩ := h
  have hcost : (costText newCost).toList = ['1', '2'] := by
    decide +kernel
  refine ⟨(Base64.encode Base64.crypt salt).toList ++
    (Base64.encode Base64.crypt (digest newCost salt password)).toList, ?_, ?_, ?_⟩
  · rw [hash, Hash.toList_toString, hcost, List.nil_append]
  · rw [List.length_append, Base64.length_encode, Base64.length_encode, hsalt, length_digest]
  · exact List.forall_mem_append.mpr ⟨fun _ => Base64.mem_chars_of_mem_encode,
      fun _ => Base64.mem_chars_of_mem_encode⟩

theorem opens_hash (password : String) {salt : List UInt8} (hsalt : salt.length = 16) :
    opens password (hash password salt) := by
  have hleast : leastCost ≤ newCost := by
    decide
  have hgreatest : newCost ≤ greatestCost := by
    decide
  rw [opens, hash, Hash.ofString?_toString hleast hgreatest hsalt (length_digest ..)]
  exact decide_eq_true rfl

theorem Hashed.opens {password stored : String} (h : Hashed password stored) : opens password stored := by
  obtain ⟨salt, hsalt, rfl⟩ := h
  exact opens_hash password hsalt

end Password

end SessionGate
