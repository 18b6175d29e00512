import SessionGate.Proofs.Token.Diagnosis

/-!
Tokens whose last segment was changed after they were issued. Under a shared secret one signature fits
what was signed, and bytes have one text only, so every other text in its place is a wrong signature.
It is one at every time, since nothing is looked at before the signature but the header.
-/

namespace SessionGate.Token

namespace Authority

variable {a : Authority} {secret : List UInt8} {payload last : List Char}

/-- What was signed under a shared secret opens with the one text of its signature, and no other. -/
theorem opened_shared (hkeys : a.keys = .shared secret) (hpayload : '.' ∉ payload)
    (hlast : '.' ∉ last) :
    a.opened (String.ofList ((encodeJson a.header.toJson ++ '.' :: payload) ++ '.' :: last)) =
      if last = (Base64.encode Base64.url
        (Hmac.code secret (charBytes (encodeJson a.header.toJson ++ '.' :: payload)))).toList
      then .ok payload else .error .wrongSignature := by
  have hchecker : a.checker a.header =
      .ok fun message signature => signature == Hmac.code secret message := by
    rw [checker, hkeys]
  have halgorithm : a.header.algorithm = a.algorithm := rfl
  simp only [opened, Segments.ofText?_ofList _ _ _ hpayload hlast, readHeader_encodeJson, halgorithm,
    if_true, hchecker, ← Base64.decodeChars?_eq_some_iff]
  cases Base64.decodeChars? Base64.url last with
  | none => rfl
  | some signature => simp only [beq_iff_eq, Option.some.injEq]

/-- A payload that is decoded is never blamed on the signature. -/
theorem judge_encodeJson_ne (v : Json) (now : Instant) :
    a.judge now (encodeJson v) ≠ .error .wrongSignature := by
  rw [ne_eq, judge_eq_wrongSignature_iff, decodeChars?_encodeJson]
  exact Option.some_ne_none _

/-- Over the payload of issued claims the signature is blamed exactly where it is not the one text that
the secret gives. -/
theorem verify_shared_iff (hkeys : a.keys = .shared secret) {c : Claims} (hlast : '.' ∉ last)
    (now : Instant) :
    a.verify now (String.ofList (a.signedPart c ++ '.' :: last)) = .error .wrongSignature ↔
      last ≠ (Base64.encode Base64.url (Hmac.code secret (charBytes (a.signedPart c)))).toList := by
  have hpayload : '.' ∉ encodeJson c.toJson := dot_not_mem_encode _
  rw [verify_eq, signedPart, opened_shared hkeys hpayload hlast]
  split
  · next hsame => exact iff_of_false (judge_encodeJson_ne _ now) (not_not_intro hsame)
  · next hother => exact iff_of_true rfl hother

end Authority

theorem ofList_append_dot (before : List Char) (last : String) :
    String.ofList before ++ "." ++ last = String.ofList (before ++ '.' :: last.toList) := by
  rw [← String.toList_inj]
  simp

/-- An issued token ends in the code of all before it, and no other text without a full stop can take its
place: each is a wrong signature, however it is spelled and whatever the time, while the code never is. -/
theorem Authority.tampered_iff {a : Authority} {secret : List UInt8} (hkeys : a.keys = .shared secret)
    {start expiry : Instant} {session : String} {subject : Int64} {issued : Issued}
    (hissue : a.issue start expiry session subject = .ok issued) : ∃ signed last : String,
      issued.token = signed ++ "." ++ last ∧ '.' ∉ last.toList ∧
        last = Base64.encode Base64.url (Hmac.code secret signed.toUTF8.toList) ∧
        ∀ other : String, '.' ∉ other.toList → ∀ now,
          a.verify now (signed ++ "." ++ other) = .error .wrongSignature ↔ other ≠ last := by
  obtain ⟨htoken, -⟩ := issue_eq_ok hissue
  obtain ⟨signature, hsign, htoken⟩ := Option.bind_eq_some_iff.mp htoken
  have hcode : signature = Hmac.code secret
      (charBytes (a.signedPart (a.claims start expiry session subject))) := by
    rw [sign?, hkeys] at hsign
    exact (Option.some.inj hsign).symm
  refine ⟨String.ofList (a.signedPart (a.claims start expiry session subject)),
    Base64.encode Base64.url signature, ?_, dot_not_mem_encode signature,
    congrArg (Base64.encode Base64.url) hcode, fun other hother now => ?_⟩
  · rw [ofList_append_dot]
    exact (Option.some.inj htoken).symm
  · rw [ofList_append_dot, verify_shared_iff hkeys hother, ← hcode, ne_eq, ne_eq, String.toList_inj]

/-- No text at all, foreign characters and the code with one character more are wrong signatures of a
token of the first day, at all times. -/
theorem Authority.tampered_sample : ∃ issued, ∃ signed last : String,
    Sample.sharing.issue ⟨500000000⟩ ⟨86400500000000⟩ "first" 7 = .ok issued ∧
      issued.token = signed ++ "." ++ last ∧
      ∀ now, Sample.sharing.verify now (signed ++ "." ++ "") = .error .wrongSignature ∧
        Sample.sharing.verify now (signed ++ "." ++ "é!") = .error .wrongSignature ∧
        Sample.sharing.verify now (signed ++ "." ++ (last ++ "A")) = .error .wrongSignature ∧
        Sample.sharing.verify now issued.token ≠ .error .wrongSignature := by
  have hsigns : ∀ message, ∃ signature, Sample.sharing.sign? message = some signature :=
    fun message => ⟨_, rfl⟩
  obtain ⟨issued, hissue⟩ := exists_issued hsigns ⟨500000000⟩ ⟨86400500000000⟩ "first" 7
  obtain ⟨signed, last, htoken, hdot, hcode, hiff⟩ := tampered_iff rfl hissue
  have hlength : last.length = 43 := by
    rw [hcode, ← String.length_toList, Base64.length_encode, Hmac.length_code]
  have hother : ∀ other : String, '.' ∉ other.toList → other.length ≠ 43 → ∀ now,
      Sample.sharing.verify now (signed ++ "." ++ other) = .error .wrongSignature :=
    fun other hdot hne now => (hiff other hdot now).mpr fun heq => hne (heq ▸ hlength)
  refine ⟨issued, signed, last, hissue, htoken, fun now => ⟨?_, ?_, ?_, ?_⟩⟩
  · exact hother "" (by decide) (by decide) now
  · exact hother "é!" (by decide) (by decide) now
  · refine hother (last ++ "A") ?_ ?_ now
    · simpa using hdot
    · rw [String.length_append, hlength]
      decide
  · rw [htoken]
    exact fun hwrong => (hiff last hdot now).mp hwrong rfl

end SessionGate.Token
