import SessionGate.Proofs.Service.Bearer
import SessionGate.Proofs.Token.Issue

/-!
An issued token in a header. All its characters are graphic, so a gate takes it out as it was put in.
-/

namespace SessionGate

namespace Token

variable {a : Authority} {c : Claims} {token : String}

def bearing (token : String) : Http.Headers := [("authorization", "Bearer " ++ token)]

theorem Authority.mem_of_tokenOf? (h : a.tokenOf? c = some token) {character : Char}
    (hmem : character ∈ token.toList) : character ∈ '.' :: Base64.url.chars := by
  unfold tokenOf? at h
  obtain ⟨signature, -, htoken⟩ := Option.bind_eq_some_iff.mp h
  obtain rfl := Option.some.inj htoken
  simp only [String.toList_ofList, List.mem_append, List.mem_cons] at hmem ⊢
  rcases hmem with (hheader | rfl | hpayload) | rfl | hsignature
  · exact .inr (Base64.mem_chars_of_mem_encode hheader)
  · exact .inl rfl
  · exact .inr (Base64.mem_chars_of_mem_encode hpayload)
  · exact .inl rfl
  · exact .inr (Base64.mem_chars_of_mem_encode hsignature)

theorem toList_ne_nil_of_tokenOf? (h : a.tokenOf? c = some token) : token.toList ≠ [] := by
  unfold Authority.tokenOf? at h
  obtain ⟨signature, -, htoken⟩ := Option.bind_eq_some_iff.mp h
  obtain rfl := Option.some.inj htoken
  simp

theorem bearerToken_bearing (h : a.tokenOf? c = some token) :
    bearerToken (bearing token) = .ok token := by
  have hgraphic : ∀ character ∈ '.' :: Base64.url.chars, Http.IsGraphic character :=
    List.forall_mem_cons.mpr ⟨by decide, fun _ => Http.isGraphic_of_mem_url⟩
  have hne : token ≠ "" := mt String.toList_eq_nil_iff.mpr (toList_ne_nil_of_tokenOf? h)
  have hbears := bears_bearer hne fun character hmem =>
    hgraphic character (Authority.mem_of_tokenOf? h hmem)
  exact bearerToken_eq_ok_iff.mpr ⟨_, ⟨[], [], rfl, nofun⟩, hbears⟩

end Token

end SessionGate
