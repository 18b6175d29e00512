import SessionGate.Proofs.Json.Literal

/-!
How a string literal may be spelled. Between its quotes stand characters for themselves, short
escapes, and sixteen-bit units in hexadecimal; a unit spells a character alone or as one half of a
surrogate pair. Every such literal is read to its closing quote, and gives the text that it spells,
or none where a half has no other half beside it.
-/

namespace SessionGate.Json

def IsPlain (c : Char) : Prop := 0x20 ≤ c.toNat ∧ c ≠ '"' ∧ c ≠ '\\'

/-- What may follow a backslash, with the character that is meant. -/
def shortEscapes : List (Char × Char) :=
  [('"', '"'), ('\\', '\\'), ('/', '/'), ('b', Char.ofNat 8), ('f', Char.ofNat 12), ('n', '\n'),
    ('r', '\r'), ('t', '\t')]

def hexDigits : List (Char × Nat) :=
  "0123456789abcdef".toList.zipIdx ++ "ABCDEF".toList.zipIdx 10

def IsUnit (c3 c2 c1 c0 : Char) (n : Nat) : Prop :=
  ∃ d3 d2 d1 d0, (c3, d3) ∈ hexDigits ∧ (c2, d2) ∈ hexDigits ∧ (c1, d1) ∈ hexDigits ∧
    (c0, d0) ∈ hexDigits ∧ n = ((d3 * 16 + d2) * 16 + d1) * 16 + d0

def IsHigh (n : Nat) : Prop := 0xd800 ≤ n ∧ n ≤ 0xdbff

def IsLow (n : Nat) : Prop := 0xdc00 ≤ n ∧ n ≤ 0xdfff

/-- The characters between the quotes of a literal. -/
inductive IsQuoted : List Char → Prop
  | nil : IsQuoted []
  | plain {c body} : IsPlain c → IsQuoted body → IsQuoted (c :: body)
  | short {e c body} : (e, c) ∈ shortEscapes → IsQuoted body → IsQuoted ('\\' :: e :: body)
  | unit {c3 c2 c1 c0 n body} : IsUnit c3 c2 c1 c0 n → IsQuoted body →
    IsQuoted ('\\' :: 'u' :: c3 :: c2 :: c1 :: c0 :: body)

/-- The text that the characters between the quotes stand for. -/
inductive Spells : List Char → List Char → Prop
  | nil : Spells [] []
  | plain {c body text} : IsPlain c → Spells body text → Spells (c :: body) (c :: text)
  | short {e c body text} : (e, c) ∈ shortEscapes → Spells body text →
    Spells ('\\' :: e :: body) (c :: text)
  | unit {c3 c2 c1 c0 c body text} : IsUnit c3 c2 c1 c0 c.toNat → Spells body text →
    Spells ('\\' :: 'u' :: c3 :: c2 :: c1 :: c0 :: body) (c :: text)
  | pair {c3 c2 c1 c0 n d3 d2 d1 d0 m c body text} : IsUnit c3 c2 c1 c0 n → IsHigh n →
    IsUnit d3 d2 d1 d0 m → IsLow m → c.toNat = 0x10000 + (n - 0xd800) * 0x400 + (m - 0xdc00) →
    Spells body text →
    Spells ('\\' :: 'u' :: c3 :: c2 :: c1 :: c0 :: '\\' :: 'u' :: d3 :: d2 :: d1 :: d0 :: body)
      (c :: text)

/-- A literal with the text that it holds. One with a lone half of a pair holds none. -/
structure IsLiteral (body : List Char) (text : Option String) : Prop where
  quoted : IsQuoted body
  text_iff : ∀ t, text = some t ↔ Spells body t.toList

theorem Spells.isQuoted {body text : List Char} (h : Spells body text) : IsQuoted body := by
  induction h with
  | nil => exact .nil
  | plain hc _ ih => exact .plain hc ih
  | short he _ ih => exact .short he ih
  | unit hunit _ ih => exact .unit hunit ih
  | pair hhigh _ hlow _ _ _ ih => exact .unit hhigh (.unit hlow ih)

theorem hexValue?_of_mem : ∀ p ∈ hexDigits, p.1.toNat < 128 ∧ hexValue? (byte p.1) = some p.2 := by
  decide +kernel

theorem escape?_of_mem : ∀ p ∈ shortEscapes, p.1.toNat < 128 ∧ p.1 ≠ 'u' ∧ p.2.toNat < 128 ∧
    byte p.1 ≠ 0x75 ∧ escape? (byte p.1) = some (byte p.2) := by
  decide +kernel

theorem shortEscapes_inj : ∀ p ∈ shortEscapes, ∀ q ∈ shortEscapes, p.1 = q.1 → p.2 = q.2 := by
  decide +kernel

theorem IsUnit.unique {c3 c2 c1 c0 : Char} {n m : Nat} (hn : IsUnit c3 c2 c1 c0 n)
    (hm : IsUnit c3 c2 c1 c0 m) : n = m := by
  obtain ⟨d3, d2, d1, d0, h3, h2, h1, h0, rfl⟩ := hn
  obtain ⟨e3, e2, e1, e0, g3, g2, g1, g0, rfl⟩ := hm
  have hdigit : ∀ {c : Char} {d e : Nat}, (c, d) ∈ hexDigits → (c, e) ∈ hexDigits → d = e :=
    fun hd he => Option.some.inj ((hexValue?_of_mem _ hd).2.symm.trans (hexValue?_of_mem _ he).2)
  rw [hdigit h3 g3, hdigit h2 g2, hdigit h1 g1, hdigit h0 g0]

theorem IsUnit.le {c3 c2 c1 c0 : Char} {n : Nat} (h : IsUnit c3 c2 c1 c0 n) : n ≤ 0xffff := by
  obtain ⟨d3, d2, d1, d0, h3, h2, h1, h0, rfl⟩ := h
  have hdigit : ∀ p ∈ hexDigits, p.2 < 16 := by
    decide +kernel
  have := hdigit _ h3
  have := hdigit _ h2
  have := hdigit _ h1
  have := hdigit _ h0
  dsimp only at *
  omega

theorem not_isPlain_escape : ¬IsPlain '\\' := fun h => h.2.2 rfl

theorem not_mem_shortEscapes (c : Char) : ('u', c) ∉ shortEscapes :=
  fun h => (escape?_of_mem _ h).2.1 rfl

/-- A character is no half of a pair. -/
theorem not_isHigh_toNat (c : Char) : ¬IsHigh c.toNat ∧ ¬IsLow c.toNat := by
  have hvalid : c.toNat < 0xd800 ∨ 0xdfff < c.toNat ∧ c.toNat < 0x110000 := c.valid
  simp only [IsHigh, IsLow]
  omega

section Spells

variable {body text : List Char} {c : Char}

theorem spells_nil_iff : Spells [] text ↔ text = [] := by
  constructor
  · intro h
    cases h
    rfl
  · rintro rfl
    exact .nil

theorem spells_plain_iff (hc : IsPlain c) :
    Spells (c :: body) text ↔ ∃ more, text = c :: more ∧ Spells body more := by
  constructor
  · intro h
    cases h with
    | plain _ h => exact ⟨_, rfl, h⟩
    | short | unit | pair => exact absurd hc not_isPlain_escape
  · rintro ⟨more, rfl, h⟩
    exact .plain hc h

theorem spells_short_iff {e : Char} (he : (e, c) ∈ shortEscapes) :
    Spells ('\\' :: e :: body) text ↔ ∃ more, text = c :: more ∧ Spells body more := by
  constructor
  · intro h
    cases h with
    | plain hc => exact absurd hc not_isPlain_escape
    | short he' h =>
      obtain rfl : _ = c := shortEscapes_inj _ he' _ he rfl
      exact ⟨_, rfl, h⟩
    | unit | pair => exact absurd he (not_mem_shortEscapes c)
  · rintro ⟨more, rfl, h⟩
    exact .short he h

variable {c3 c2 c1 c0 d3 d2 d1 d0 : Char} {n m : Nat}

theorem spells_unit_iff (hunit : IsUnit c3 c2 c1 c0 c.toNat) :
    Spells ('\\' :: 'u' :: c3 :: c2 :: c1 :: c0 :: body) text ↔
      ∃ more, text = c :: more ∧ Spells body more := by
  constructor
  · intro h
    cases h with
    | plain hc => exact absurd hc not_isPlain_escape
    | short he => exact absurd he (not_mem_shortEscapes _)
    | unit hc h =>
      obtain rfl := Char.toNat_inj.mp (hc.unique hunit)
      exact ⟨_, rfl, h⟩
    | pair hc hhigh => exact absurd (hc.unique hunit ▸ hhigh) (not_isHigh_toNat c).1
  · rintro ⟨more, rfl, h⟩
    exact .unit hunit h

theorem spells_pair_iff (hn : IsUnit c3 c2 c1 c0 n) (hhigh : IsHigh n) (hm : IsUnit d3 d2 d1 d0 m)
    (hlow : IsLow m) (hc : c.toNat = 0x10000 + (n - 0xd800) * 0x400 + (m - 0xdc00)) :
    Spells ('\\' :: 'u' :: c3 :: c2 :: c1 :: c0 :: '\\' :: 'u' :: d3 :: d2 :: d1 :: d0 :: body)
      text ↔ ∃ more, text = c :: more ∧ Spells body more := by
  constructor
  · intro h
    cases h with
    | plain hc => exact absurd hc not_isPlain_escape
    | short he => exact absurd he (not_mem_shortEscapes _)
    | unit hc => exact absurd (hc.unique hn ▸ hhigh) (not_isHigh_toNat _).1
    | pair hn' _ hm' _ hc' h =>
      obtain rfl := hn'.unique hn
      obtain rfl := hm'.unique hm
      obtain rfl := Char.toNat_inj.mp (hc'.trans hc.symm)
      exact ⟨_, rfl, h⟩
  · rintro ⟨more, rfl, h⟩
    exact .pair hn hhigh hm hlow hc h

/-- A half of a pair spells something only where it is the high one, with a low one behind it. -/
theorem Spells.low_of_half
    (h : Spells ('\\' :: 'u' :: c3 :: c2 :: c1 :: c0 :: body) text) (hn : IsUnit c3 c2 c1 c0 n)
    (hhalf : IsHigh n ∨ IsLow n) :
    IsHigh n ∧ ∃ d3 d2 d1 d0 m more, body = '\\' :: 'u' :: d3 :: d2 :: d1 :: d0 :: more ∧
      IsUnit d3 d2 d1 d0 m ∧ IsLow m := by
  cases h with
  | plain hc => exact absurd hc not_isPlain_escape
  | short he => exact absurd he (not_mem_shortEscapes _)
  | @unit _ _ _ _ c _ _ hc =>
    obtain rfl := hn.unique hc
    exact absurd hhalf (not_or.mpr (not_isHigh_toNat c))
  | pair hn' hhigh hm hlow => exact ⟨hn'.unique hn ▸ hhigh, _, _, _, _, _, _, rfl, hm, hlow⟩

end Spells

/-- The pieces that a literal is read as. -/
inductive Pieces : List Char → List Piece → Prop
  | nil : Pieces [] []
  | plain {c body pieces} : IsPlain c → Pieces body pieces →
    Pieces (c :: body) ((String.utf8EncodeChar c).map .byte ++ pieces)
  | short {e c body pieces} : (e, c) ∈ shortEscapes → Pieces body pieces →
    Pieces ('\\' :: e :: body) (.byte (byte c) :: pieces)
  | unit {c3 c2 c1 c0 n body pieces} : IsUnit c3 c2 c1 c0 n → Pieces body pieces →
    Pieces ('\\' :: 'u' :: c3 :: c2 :: c1 :: c0 :: body) (.unit n :: pieces)

theorem IsQuoted.exists_pieces {body : List Char} (h : IsQuoted body) :
    ∃ pieces, Pieces body pieces := by
  induction h with
  | nil => exact ⟨_, .nil⟩
  | plain hc _ ih => exact ih.imp' _ fun _ => .plain hc
  | short he _ ih => exact ih.imp' _ fun _ => .short he
  | unit hunit _ ih => exact ih.imp' _ fun _ => .unit hunit

theorem readPieces?_short {e c : Char} (h : (e, c) ∈ shortEscapes) (seen : List Piece)
    (rest : List UInt8) :
    readPieces? seen (0x5c :: byte e :: rest) = readPieces? (.byte (byte c) :: seen) rest := by
  obtain ⟨-, -, -, hne, hescape⟩ := escape?_of_mem _ h
  conv => lhs; unfold readPieces?
  split
  · next heq => cases heq
  · next heq => exact absurd (List.cons.inj heq).1 (by decide)
  · next heq => exact absurd (List.cons.inj (List.cons.inj heq).2).1 hne
  · next heq =>
    obtain ⟨rfl, rfl⟩ := List.cons.inj (List.cons.inj heq).2
    rw [hescape]
  · next hother heq =>
    obtain ⟨rfl, rfl⟩ := List.cons.inj heq
    exact absurd rfl (hother _ _ rfl)

theorem readPieces?_isUnit {c3 c2 c1 c0 : Char} {n : Nat} (h : IsUnit c3 c2 c1 c0 n)
    (seen : List Piece) (rest : List UInt8) :
    readPieces? seen (0x5c :: 0x75 :: byte c3 :: byte c2 :: byte c1 :: byte c0 :: rest) =
      readPieces? (.unit n :: seen) rest := by
  obtain ⟨d3, d2, d1, d0, h3, h2, h1, h0, rfl⟩ := h
  rw [readPieces?]
  simp only [hexValue?_of_mem _ h3, hexValue?_of_mem _ h2, hexValue?_of_mem _ h1,
    hexValue?_of_mem _ h0]

theorem Pieces.read {body : List Char} {pieces : List Piece} (h : Pieces body pieces)
    (seen : List Piece) (rest : List UInt8) :
    readPieces? seen (bytes body ++ 0x22 :: rest) = some (seen.reverse ++ pieces, rest) := by
  induction h generalizing seen with
  | nil =>
    change readPieces? seen (0x22 :: rest) = _
    rw [readPieces?, List.append_nil]
  | plain hc _ ih =>
    rw [bytes_cons, List.append_assoc,
      readPieces?_ordinaries (isOrdinary_utf8EncodeChar hc.1 hc.2.1 hc.2.2), ih]
    simp
  | short he _ ih =>
    have hlt := (escape?_of_mem _ he).1
    rw [bytes_cons_of_lt (by decide), bytes_cons_of_lt hlt]
    change readPieces? seen (0x5c :: byte _ :: (bytes _ ++ _)) = _
    rw [readPieces?_short he, ih]
    simp
  | unit hunit _ ih =>
    obtain ⟨d3, d2, d1, d0, h3, h2, h1, h0, -⟩ := id hunit
    rw [bytes_cons_of_lt (by decide), bytes_cons_of_lt (by decide),
      bytes_cons_of_lt (hexValue?_of_mem _ h3).1, bytes_cons_of_lt (hexValue?_of_mem _ h2).1,
      bytes_cons_of_lt (hexValue?_of_mem _ h1).1, bytes_cons_of_lt (hexValue?_of_mem _ h0).1]
    change readPieces? seen
      (0x5c :: 0x75 :: byte _ :: byte _ :: byte _ :: byte _ :: (bytes _ ++ _)) = _
    rw [readPieces?_isUnit hunit, ih]
    simp

/-- A unit comes first among the pieces only where it is written first. -/
theorem Pieces.unit_inv {body : List Char} {n : Nat} {rest : List Piece}
    (h : Pieces body (.unit n :: rest)) :
    ∃ c3 c2 c1 c0 more, body = '\\' :: 'u' :: c3 :: c2 :: c1 :: c0 :: more ∧
      IsUnit c3 c2 c1 c0 n ∧ Pieces more rest := by
  generalize hpieces : Piece.unit n :: rest = pieces at h
  cases h with
  | nil | short => cases hpieces
  | @plain c _ _ hc =>
    cases hbytes : String.utf8EncodeChar c with
    | nil => exact absurd hbytes String.utf8EncodeChar_ne_nil
    | cons b bs =>
      rw [hbytes] at hpieces
      cases hpieces
  | unit hunit h =>
    obtain ⟨hn, rfl⟩ := List.cons.inj hpieces
    obtain rfl := Piece.unit.inj hn
    exact ⟨_, _, _, _, _, rfl, hunit, h⟩

theorem Pieces.unit_of_escape {c3 c2 c1 c0 : Char} {n : Nat} {body : List Char}
    {pieces : List Piece} (h : Pieces ('\\' :: 'u' :: c3 :: c2 :: c1 :: c0 :: body) pieces)
    (hn : IsUnit c3 c2 c1 c0 n) : ∃ rest, pieces = .unit n :: rest := by
  cases h with
  | plain hc => exact absurd hc not_isPlain_escape
  | short he => exact absurd he (not_mem_shortEscapes _)
  | unit hn' => exact ⟨_, by rw [hn.unique hn']⟩

theorem scalarBytes_toNat (c : Char) : scalarBytes c.toNat = String.utf8EncodeChar c := by
  rw [scalarBytes, Char.ofNat_toNat, toList_toUTF8]
  simp

/-- A number that is no half of a pair and within the range is a character's. -/
theorem exists_toNat_eq {n : Nat} (hlt : n < 0x110000) (h : ¬IsHigh n) (hlow : ¬IsLow n) :
    ∃ c : Char, c.toNat = n := by
  have hvalid : n.isValidChar := by
    simp only [IsHigh, IsLow, Nat.isValidChar] at *
    omega
  exact ⟨Char.ofNat n, by rw [Char.ofNat, dif_pos hvalid]; rfl⟩

/-- The bytes of the pieces are those of a text that is spelled, if there is one. -/
def GivesBytes (body : List Char) (pieces : List Piece) : Prop :=
  ∀ bs, pieceBytes? pieces = some bs ↔ ∃ text, Spells body text ∧ bytes text = bs

theorem GivesBytes.cons {body more : List Char} {pieces rest : List Piece} {c : Char}
    (hspells : ∀ text, Spells body text ↔ ∃ tail, text = c :: tail ∧ Spells more tail)
    (hpieces : pieceBytes? pieces = (pieceBytes? rest).map (String.utf8EncodeChar c ++ ·))
    (h : GivesBytes more rest) : GivesBytes body pieces := by
  intro bs
  rw [hpieces, Option.map_eq_some_iff]
  constructor
  · rintro ⟨_, hrest, rfl⟩
    obtain ⟨tail, htail, rfl⟩ := (h _).mp hrest
    exact ⟨c :: tail, (hspells _).mpr ⟨tail, rfl, htail⟩, rfl⟩
  · rintro ⟨text, htext, rfl⟩
    obtain ⟨tail, rfl, htail⟩ := (hspells _).mp htext
    exact ⟨bytes tail, (h _).mpr ⟨tail, htail, rfl⟩, rfl⟩

theorem GivesBytes.none {body : List Char} {pieces : List Piece}
    (hspells : ∀ text, ¬Spells body text) (hpieces : pieceBytes? pieces = none) :
    GivesBytes body pieces := by
  intro bs
  rw [hpieces]
  constructor
  · rintro ⟨⟩
  · rintro ⟨text, htext, -⟩
    exact absurd htext (hspells text)

section pieceBytes?

variable {n m : Nat} {rest : List Piece}

theorem pieceBytes?_scalar {c : Char} :
    pieceBytes? (.unit c.toNat :: rest) =
      (pieceBytes? rest).map (String.utf8EncodeChar c ++ ·) := by
  have hvalid : c.toNat < 0xd800 ∨ 0xdfff < c.toNat := by
    obtain ⟨hhigh, hlow⟩ := not_isHigh_toNat c
    simp only [IsHigh, IsLow] at hhigh hlow
    omega
  conv => lhs; unfold pieceBytes?
  rw [if_pos hvalid, scalarBytes_toNat]

theorem pieceBytes?_pair {c : Char} (hhigh : IsHigh n) (hlow : IsLow m)
    (hc : c.toNat = 0x10000 + (n - 0xd800) * 0x400 + (m - 0xdc00)) :
    pieceBytes? (.unit n :: .unit m :: rest) =
      (pieceBytes? rest).map (String.utf8EncodeChar c ++ ·) := by
  have hhalf : ¬(n < 0xd800 ∨ 0xdfff < n) := by
    simp only [IsHigh] at hhigh
    omega
  have hnot : ¬0xdc00 ≤ n := by
    simp only [IsHigh] at hhigh
    omega
  have hm : 0xdc00 ≤ m ∧ m ≤ 0xdfff := hlow
  rw [pieceBytes?, if_neg hhalf, if_neg hnot, if_pos hm, ← hc, scalarBytes_toNat]

theorem pieceBytes?_low (hlow : IsLow n) : pieceBytes? (.unit n :: rest) = none := by
  have hhalf : ¬(n < 0xd800 ∨ 0xdfff < n) := by
    simp only [IsLow] at hlow
    omega
  unfold pieceBytes?
  rw [if_neg hhalf, if_pos hlow.1]

theorem pieceBytes?_high (hhigh : IsHigh n) (h : ∀ m more, rest = .unit m :: more → ¬IsLow m) :
    pieceBytes? (.unit n :: rest) = none := by
  have hhalf : ¬(n < 0xd800 ∨ 0xdfff < n) := by
    simp only [IsHigh] at hhigh
    omega
  have hnot : ¬0xdc00 ≤ n := by
    simp only [IsHigh] at hhigh
    omega
  unfold pieceBytes?
  rw [if_neg hhalf, if_neg hnot]
  split
  · next m more => exact if_neg (h m more rfl)
  · rfl

end pieceBytes?

theorem Pieces.givesBytes {body : List Char} {pieces : List Piece} (h : Pieces body pieces) :
    GivesBytes body pieces := by
  -- a pair takes two units at once, so the induction is on how much is left
  induction hlength : body.length using Nat.strongRecOn generalizing body pieces with
  | ind length ih =>
  subst hlength
  have hrest : ∀ {more rest}, more.length < body.length → Pieces more rest → GivesBytes more rest :=
    fun hlt hmore => ih _ hlt hmore rfl
  cases h with
  | nil =>
    intro bs
    simp [pieceBytes?, spells_nil_iff, eq_comm]
  | plain hc h =>
    refine .cons (fun _ => spells_plain_iff hc) (pieceBytes?_bytes _ _) (hrest ?_ h)
    exact Nat.lt_succ_self _
  | @short _ c _ rest he h =>
    have hbyte : pieceBytes? (.byte (byte c) :: rest) =
        (pieceBytes? rest).map (String.utf8EncodeChar c ++ ·) := by
      rw [utf8EncodeChar_of_lt (escape?_of_mem _ he).2.2.1]
      rfl
    refine .cons (fun _ => spells_short_iff he) hbyte (hrest ?_ h)
    simp only [List.length_cons]
    omega
  | @unit _ _ _ _ n more rest hn h =>
    by_cases hlow : IsLow n
    · refine .none (fun text htext => ?_) (pieceBytes?_low hlow)
      obtain ⟨hhigh, -⟩ := htext.low_of_half hn (.inr hlow)
      exact absurd (Nat.le_trans hlow.1 hhigh.2) (by decide)
    by_cases hhigh : IsHigh n
    · by_cases hpair : ∃ m after, rest = .unit m :: after ∧ IsLow m
      · obtain ⟨m, after, rfl, hlow⟩ := hpair
        obtain ⟨d3, d2, d1, d0, body, rfl, hm, h⟩ := h.unit_inv
        obtain ⟨c, hc⟩ : ∃ c : Char, c.toNat = 0x10000 + (n - 0xd800) * 0x400 + (m - 0xdc00) := by
          apply exists_toNat_eq <;> simp only [IsHigh, IsLow] at * <;> omega
        refine .cons (fun _ => spells_pair_iff hn hhigh hm hlow hc)
          (pieceBytes?_pair hhigh hlow hc) (hrest ?_ h)
        simp only [List.length_cons]
        omega
      · refine .none (fun text htext => ?_)
          (pieceBytes?_high hhigh fun m after hrest hlow => hpair ⟨m, after, hrest, hlow⟩)
        obtain ⟨-, d3, d2, d1, d0, m, body, rfl, hm, hlow⟩ := htext.low_of_half hn (.inl hhigh)
        obtain ⟨after, rfl⟩ := h.unit_of_escape hm
        exact hpair ⟨m, after, rfl, hlow⟩
    · obtain ⟨c, rfl⟩ := exists_toNat_eq (Nat.lt_of_le_of_lt hn.le (by decide)) hhigh hlow
      refine .cons (fun _ => spells_unit_iff hn) pieceBytes?_scalar (hrest ?_ h)
      simp only [List.length_cons]
      omega

theorem Pieces.text_iff {body : List Char} {pieces : List Piece} (h : Pieces body pieces)
    (t : String) : pieceText? pieces = some t ↔ Spells body t.toList := by
  rw [pieceText?, Option.bind_eq_some_iff]
  constructor
  · rintro ⟨bs, hbs, ht⟩
    obtain ⟨text, htext, rfl⟩ := (h.givesBytes bs).mp hbs
    have hread := textOfBytes?_toList (String.ofList text)
    rw [toList_toUTF8, String.toList_ofList] at hread
    obtain rfl := Option.some.inj (ht.symm.trans hread)
    rwa [String.toList_ofList]
  · intro ht
    refine ⟨t.toUTF8.toList, (h.givesBytes _).mpr ⟨t.toList, ht, ?_⟩, textOfBytes?_toList t⟩
    exact (toList_toUTF8 t).symm

/-- A literal is read to its closing quote, as the text that it holds. -/
theorem IsLiteral.read {body : List Char} {text : Option String} (h : IsLiteral body text)
    (rest : List UInt8) : readLiteral? (bytes body ++ 0x22 :: rest) = some (text, rest) := by
  obtain ⟨pieces, hpieces⟩ := h.quoted.exists_pieces
  have htext : pieceText? pieces = text :=
    Option.ext fun t => (hpieces.text_iff t).trans (h.text_iff t).symm
  rw [readLiteral?, hpieces.read, Option.map_some]
  dsimp only
  rw [List.reverse_nil, List.nil_append, htext]

theorem Spells.isLiteral {body : List Char} {text : String} (h : Spells body text.toList) :
    IsLiteral body (some text) where
  quoted := h.isQuoted
  text_iff t := by
    obtain ⟨pieces, hpieces⟩ := h.isQuoted.exists_pieces
    rw [← hpieces.text_iff, (hpieces.text_iff text).mpr h]

end SessionGate.Json
