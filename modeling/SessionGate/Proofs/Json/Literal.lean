import SessionGate.Proofs.Text.Utf8

/-!
The bytes of characters, and what a string literal makes of those that are not escaped: they stand for
themselves.
-/

namespace SessionGate.Json

def bytes (chars : List Char) : List UInt8 := chars.flatMap String.utf8EncodeChar

@[simp] theorem bytes_nil : bytes [] = [] := rfl

@[simp] theorem bytes_append (chars more : List Char) :
    bytes (chars ++ more) = bytes chars ++ bytes more := List.flatMap_append ..

theorem bytes_cons (c : Char) (chars : List Char) :
    bytes (c :: chars) = String.utf8EncodeChar c ++ bytes chars := rfl

theorem bytes_cons_of_lt {c : Char} (h : c.toNat < 128) (chars : List Char) :
    bytes (c :: chars) = byte c :: bytes chars := by
  rw [bytes_cons, utf8EncodeChar_of_lt h]
  rfl

/-- A byte that stands for itself in a literal. -/
def IsOrdinary (b : UInt8) : Prop := 0x20 ≤ b ∧ b ≠ 0x22 ∧ b ≠ 0x5c

theorem readPieces?_ordinary {b : UInt8} (h : IsOrdinary b) (seen : List Piece)
    (rest : List UInt8) : readPieces? seen (b :: rest) = readPieces? (.byte b :: seen) rest := by
  obtain ⟨hle, hquote, hescape⟩ := h
  conv => lhs; unfold readPieces?
  split
  · next heq => cases heq
  · next heq => exact absurd (List.cons.inj heq).1 hquote
  · next heq => exact absurd (List.cons.inj heq).1 hescape
  · next heq => exact absurd (List.cons.inj heq).1 hescape
  · next heq =>
    obtain ⟨rfl, rfl⟩ := List.cons.inj heq
    exact if_neg (not_or.mpr ⟨UInt8.not_lt.mpr hle, hescape⟩)

theorem readPieces?_ordinaries {bs : List UInt8} (h : ∀ b ∈ bs, IsOrdinary b) (seen : List Piece)
    (rest : List UInt8) :
    readPieces? seen (bs ++ rest) = readPieces? ((bs.map Piece.byte).reverse ++ seen) rest := by
  induction bs generalizing seen with
  | nil => rfl
  | cons b bs ih =>
    rw [List.cons_append, readPieces?_ordinary (h b List.mem_cons_self),
      ih fun b hb => h b (List.mem_cons_of_mem _ hb)]
    simp

theorem isOrdinary_utf8EncodeChar {c : Char} (h : 32 ≤ c.toNat) (hquote : c ≠ '"')
    (hescape : c ≠ '\\') : ∀ b ∈ String.utf8EncodeChar c, IsOrdinary b := by
  intro b hb
  by_cases hlt : c.toNat < 128
  · rw [utf8EncodeChar_of_lt hlt, List.mem_singleton] at hb
    have hbyte : b.toNat = c.toNat := by
      rw [hb, byte, UInt8.toNat_ofNat']
      omega
    have hne : ∀ d : Char, d.toNat < 128 → c ≠ d → b ≠ byte d := by
      intro d hd hcd hbd
      rw [hbd, byte, UInt8.toNat_ofNat', Nat.mod_eq_of_lt (by omega)] at hbyte
      exact hcd (Char.toNat_inj.mp hbyte.symm)
    refine ⟨?_, hne '"' (by decide) hquote, hne '\\' (by decide) hescape⟩
    rw [UInt8.le_iff_toNat_le, hbyte]
    exact h
  · have hle := le_of_mem_utf8EncodeChar (Nat.not_lt.mp hlt) hb
    refine ⟨UInt8.le_iff_toNat_le.mpr (Nat.le_trans (by decide) hle), ?_, ?_⟩ <;>
      rintro rfl <;> exact absurd hle (by decide)

theorem pieceBytes?_bytes (bs : List UInt8) (rest : List Piece) :
    pieceBytes? (bs.map Piece.byte ++ rest) = (pieceBytes? rest).map (bs ++ ·) := by
  induction bs with
  | nil => simp
  | cons b bs ih =>
    rw [List.map_cons, List.cons_append, pieceBytes?, ih, Option.map_map]
    rfl

end SessionGate.Json
