import SessionGate.Encoding.Base64

/-!
Base64 texts read back as the bytes they were written from, in every alphabet, and no other text is
read as those bytes. A group of three bytes comes back from its four characters, and so do the one or
two bytes at the end.
-/

namespace SessionGate.Base64

theorem sextet_val (n : Nat) : (sextet n).val = n % 64 := rfl

theorem ofSextets?_sextets (bytes : List UInt8) : ofSextets? (sextets bytes) = some bytes := by
  fun_induction sextets bytes with
  | case1 b0 b1 b2 rest n ih =>
    have h0 := b0.toNat_lt
    have h1 := b1.toNat_lt
    have h2 := b2.toNat_lt
    have hn : ((n / 262144 % 64 * 64 + n / 4096 % 64) * 64 + n / 64 % 64) * 64 + n % 64 = n := by
      omega
    have hhigh : UInt8.ofNat (n / 65536) = b0 := by
      rw [show n / 65536 = b0.toNat by omega, UInt8.ofNat_toNat]
    have hmiddle : UInt8.ofNat (n / 256) = b1 := by
      rw [← UInt8.ofNat_mod_size, show n / 256 % 2 ^ 8 = b1.toNat by omega, UInt8.ofNat_toNat]
    have hlow : UInt8.ofNat n = b2 := by
      rw [← UInt8.ofNat_mod_size, show n % 2 ^ 8 = b2.toNat by omega, UInt8.ofNat_toNat]
    simp only [ofSextets?, sextet_val, hn, ih, hhigh, hmiddle, hlow, Option.map_some]
  | case2 b0 b1 n =>
    have h0 := b0.toNat_lt
    have h1 := b1.toNat_lt
    have hn : (n / 4096 % 64 * 64 + n / 64 % 64) * 64 + n % 64 = n := by
      omega
    have hhigh : UInt8.ofNat (n / 1024) = b0 := by
      rw [show n / 1024 = b0.toNat by omega, UInt8.ofNat_toNat]
    have hlow : UInt8.ofNat (n / 4) = b1 := by
      rw [← UInt8.ofNat_mod_size, show n / 4 % 2 ^ 8 = b1.toNat by omega, UInt8.ofNat_toNat]
    simp only [ofSextets?, sextet_val, hn, hhigh, hlow]
    rw [if_pos (by omega)]
  | case3 b0 n =>
    have h0 := b0.toNat_lt
    have hn : n / 64 % 64 * 64 + n % 64 = n := by
      omega
    have hbyte : UInt8.ofNat (n / 16) = b0 := by
      rw [show n / 16 = b0.toNat by omega, UInt8.ofNat_toNat]
    simp only [ofSextets?, sextet_val, hn, hbyte]
    rw [if_pos (by omega)]
  | case4 => rfl

theorem sextet_eq_iff {n : Nat} {v : Fin 64} : sextet n = v ↔ n % 64 = v.val :=
  Fin.ext_iff

/-- Sextets that are read are written again for the bytes they were read as: no bit was to spare. -/
theorem sextets_of_ofSextets? {vs : List (Fin 64)} {bytes : List UInt8}
    (h : ofSextets? vs = some bytes) : sextets bytes = vs := by
  fun_induction ofSextets? vs generalizing bytes with
  | case1 s0 s1 s2 s3 rest n =>
    rename_i ih
    obtain ⟨more, hrest, rfl⟩ := Option.map_eq_some_iff.mp h
    have hbytes : (UInt8.ofNat (n / 65536)).toNat * 65536 + (UInt8.ofNat (n / 256)).toNat * 256
        + (UInt8.ofNat n).toNat = n := by
      simp only [UInt8.toNat_ofNat']
      omega
    simp only [sextets, hbytes, ih hrest, List.cons.injEq, sextet_eq_iff, and_true]
    omega
  | case2 s0 s1 s2 n =>
    rename_i hspare
    obtain rfl := Option.some.inj h
    have hbytes : ((UInt8.ofNat (n / 1024)).toNat * 256 + (UInt8.ofNat (n / 4)).toNat) * 4 = n := by
      simp only [UInt8.toNat_ofNat']
      omega
    simp only [sextets, hbytes, List.cons.injEq, sextet_eq_iff, and_true]
    omega
  | case4 s0 s1 n =>
    rename_i hspare
    obtain rfl := Option.some.inj h
    have hbytes : (UInt8.ofNat (n / 16)).toNat * 16 = n := by
      simp only [UInt8.toNat_ofNat']
      omega
    simp only [sextets, hbytes, List.cons.injEq, sextet_eq_iff, and_true]
    omega
  | case7 =>
    obtain rfl := Option.some.inj h
    rfl
  | case3 | case5 | case6 => cases h

namespace Alphabet

variable (a : Alphabet)

theorem char_mem (v : Fin 64) : a.char v ∈ a.chars := List.get_mem _ _

theorem value?_char (v : Fin 64) : a.value? (a.char v) = some v := by
  have hv : v.val < a.chars.length := by
    rw [a.length_chars]
    exact v.isLt
  have hidx : a.chars.idxOf? (a.char v) = some v.val := by
    rw [List.idxOf?_eq_some_iff]
    refine ⟨hv, rfl, fun j hj heq => ?_⟩
    exact List.pairwise_iff_getElem.mp a.nodup_chars j v.val (Nat.lt_trans hj hv) hv hj heq
  rw [value?, hidx, Option.bind_some, dif_pos v.isLt]

theorem mapM_value?_map_char (vs : List (Fin 64)) : (vs.map a.char).mapM a.value? = some vs := by
  induction vs with
  | nil => rfl
  | cons v vs ih =>
    rw [List.map_cons, List.mapM_cons, value?_char, ih]
    rfl

end Alphabet

theorem decodeChars?_encode (a : Alphabet) (bytes : List UInt8) :
    decodeChars? a (encode a bytes).toList = some bytes := by
  rw [encode, String.toList_ofList, decodeChars?, a.mapM_value?_map_char, Option.bind_some,
    ofSextets?_sextets]

theorem mem_chars_of_mem_encode {a : Alphabet} {bytes : List UInt8} {c : Char}
    (h : c ∈ (encode a bytes).toList) : c ∈ a.chars := by
  rw [encode, String.toList_ofList] at h
  obtain ⟨v, -, rfl⟩ := List.mem_map.mp h
  exact a.char_mem v

theorem Alphabet.char_of_value? {a : Alphabet} {c : Char} {v : Fin 64}
    (h : a.value? c = some v) : a.char v = c := by
  obtain ⟨i, hindex, h⟩ := Option.bind_eq_some_iff.mp h
  obtain ⟨hlt, hget, -⟩ := List.idxOf?_eq_some_iff.mp hindex
  obtain ⟨hi, heq⟩ := Option.dite_none_right_eq_some.mp h
  obtain rfl := Option.some.inj heq
  exact hget

theorem Alphabet.map_char_of_mapM {a : Alphabet} {chars : List Char} {vs : List (Fin 64)}
    (h : chars.mapM a.value? = some vs) : vs.map a.char = chars := by
  induction chars generalizing vs with
  | nil =>
    obtain rfl := Option.some.inj h
    rfl
  | cons c rest ih =>
    rw [List.mapM_cons] at h
    obtain ⟨v, hfirst, h⟩ := Option.bind_eq_some_iff.mp h
    obtain ⟨vs', hrest, h⟩ := Option.bind_eq_some_iff.mp h
    obtain rfl := Option.some.inj h
    rw [List.map_cons, char_of_value? hfirst, ih hrest]

/-- Bytes have one text only: what is read as them is what they are written as. -/
theorem decodeChars?_eq_some_iff {a : Alphabet} {chars : List Char} {bytes : List UInt8} :
    decodeChars? a chars = some bytes ↔ chars = (encode a bytes).toList := by
  constructor
  · intro h
    obtain ⟨vs, hvs, hbytes⟩ := Option.bind_eq_some_iff.mp h
    rw [encode, String.toList_ofList, sextets_of_ofSextets? hbytes, Alphabet.map_char_of_mapM hvs]
  · rintro rfl
    exact decodeChars?_encode a bytes

/-- Only characters of the alphabet are read. -/
theorem mem_chars_of_decodeChars? {a : Alphabet} {chars : List Char} {bytes : List UInt8}
    (h : decodeChars? a chars = some bytes) {c : Char} (hmem : c ∈ chars) : c ∈ a.chars := by
  rw [decodeChars?_eq_some_iff.mp h] at hmem
  exact mem_chars_of_mem_encode hmem

/-- Six bits for every character. -/
theorem length_sextets (bytes : List UInt8) :
    (sextets bytes).length = (bytes.length * 4 + 2) / 3 := by
  fun_induction sextets bytes with
  | case1 b0 b1 b2 rest n ih =>
    simp only [List.length_cons, ih]
    omega
  | case2 | case3 | case4 => simp

theorem length_encode (a : Alphabet) (bytes : List UInt8) :
    (encode a bytes).toList.length = (bytes.length * 4 + 2) / 3 := by
  rw [encode, String.toList_ofList, List.length_map, length_sextets]

section

variable {a : Alphabet} (hplain : '=' ∉ a.chars)

include hplain

/-- Padding is told from the characters before it. -/
theorem strip_padding (bytes : List UInt8) (count : Nat) :
    (((encode a bytes).toList ++ List.replicate count '=').reverse.dropWhile (· == '=')).reverse =
      (encode a bytes).toList := by
  have hnone : ((encode a bytes).toList.reverse.dropWhile (· == '=')) = (encode a bytes).toList.reverse := by
    cases hreverse : (encode a bytes).toList.reverse with
    | nil => rfl
    | cons c rest =>
      have hmem : c ∈ (encode a bytes).toList := by
        rw [← List.mem_reverse, hreverse]
        exact List.mem_cons_self
      have hc : ¬ (c == '=') = true := by
        rw [beq_iff_eq]
        rintro rfl
        exact hplain (mem_chars_of_mem_encode hmem)
      rw [List.dropWhile_cons, if_neg hc]
  rw [List.reverse_append, List.reverse_replicate, List.dropWhile_append_of_pos (by simp), hnone,
    List.reverse_reverse]

theorem decodePadded?_encodePadded (bytes : List UInt8) :
    decodePadded? a (encodePadded a bytes) = some bytes := by
  have htext : (encodePadded a bytes).toList = (encode a bytes).toList ++
      List.replicate ((4 - (encode a bytes).toList.length % 4) % 4) '=' := by
    rw [encodePadded, String.toList_append, String.toList_ofList, String.length_toList]
  rw [decodePadded?, htext, strip_padding hplain, if_pos rfl, decodeChars?_encode]

end

theorem mem_encodePadded {a : Alphabet} {bytes : List UInt8} {c : Char}
    (h : c ∈ (encodePadded a bytes).toList) : c ∈ a.chars ∨ c = '=' := by
  rw [encodePadded, String.toList_append, String.toList_ofList] at h
  rcases List.mem_append.mp h with h | h
  · exact .inl (mem_chars_of_mem_encode h)
  · exact .inr (List.eq_of_mem_replicate h)

theorem encodePadded_ne_nil (a : Alphabet) {bytes : List UInt8} (h : bytes ≠ []) :
    (encodePadded a bytes).toList ≠ [] := by
  have hlength := length_encode a bytes
  have hpositive := List.length_pos_iff.mpr h
  intro hnil
  rw [encodePadded, String.toList_append] at hnil
  rw [(List.append_eq_nil_iff.mp hnil).1, List.length_nil] at hlength
  omega

end SessionGate.Base64
