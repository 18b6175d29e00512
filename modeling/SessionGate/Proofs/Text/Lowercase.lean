import SessionGate.Text.Lowercase

/-!
Two texts that differ only in the case of ASCII letters have one form in lower case, whatever other
letters stand around these. Main statement: `lowercase_eq_of_map_toLower`.
-/

namespace SessionGate.Text

theorem toLower_of_le {c : Char} (h : 128 ≤ c.toNat) : c.toLower = c := by
  refine dif_neg ?_
  rintro ⟨-, hle⟩
  have hlt : c.toNat ≤ 90 := UInt32.le_iff_toNat_le.mp hle
  omega

/-- A relation of every character to itself, and of each in ASCII to its own lower case, is one of all
characters to these. -/
theorem toLower_cases {P : Char → Char → Prop} (hsame : ∀ c, P c c)
    (h : ∀ n < 128, P (Char.ofNat n) (Char.ofNat n).toLower) (c : Char) : P c c.toLower := by
  rcases Nat.lt_or_ge c.toNat 128 with hlt | hle
  · have hP := h c.toNat hlt
    rwa [Char.ofNat_toNat] at hP
  · rw [toLower_of_le hle]
    exact hsame c

theorem isCased_toLower (c : Char) : isCased c.toLower = isCased c :=
  toLower_cases (P := fun c d => isCased d = isCased c) (fun _ => rfl) (by decide +kernel) c

theorem isCaseIgnorable_toLower (c : Char) : isCaseIgnorable c.toLower = isCaseIgnorable c :=
  toLower_cases (P := fun c d => isCaseIgnorable d = isCaseIgnorable c) (fun _ => rfl)
    (by decide +kernel) c

theorem lowerChar_toLower (c : Char) : lowerChar c.toLower = lowerChar c :=
  toLower_cases (P := fun c d => lowerChar d = lowerChar c) (fun _ => rfl) (by decide +kernel) c

/-- The capitals with rules of their own are no ASCII letters. -/
theorem toLower_eq_iff (special : Char) (hspecial : 128 ≤ special.toNat) (c : Char) :
    c.toLower = special ↔ c = special := by
  rcases Nat.lt_or_ge c.toNat 128 with hlt | hle
  · have hlower : c.toLower.toNat < 128 :=
      toLower_cases (P := fun c d => c.toNat < 128 → d.toNat < 128) (fun _ h => h)
        (by decide +kernel) c hlt
    constructor
    · rintro rfl
      omega
    · rintro rfl
      omega
  · rw [toLower_of_le hle]

theorem meetsLetter_map (chars : List Char) :
    meetsLetter (chars.map Char.toLower) = meetsLetter chars := by
  have hignorable : isCaseIgnorable ∘ Char.toLower = isCaseIgnorable := funext isCaseIgnorable_toLower
  rw [meetsLetter, meetsLetter, List.dropWhile_map, hignorable]
  cases chars.dropWhile isCaseIgnorable with
  | nil => rfl
  | cons c rest => exact isCased_toLower c

theorem lowerAt_map (before : List Char) (c : Char) (after : List Char) :
    lowerAt (before.map Char.toLower) c.toLower (after.map Char.toLower) = lowerAt before c after := by
  unfold lowerAt
  simp only [toLower_eq_iff 'Σ' (by decide), toLower_eq_iff 'İ' (by decide), meetsLetter_map,
    lowerChar_toLower]

theorem lowerChars_map (before chars : List Char) :
    lowerChars (before.map Char.toLower) (chars.map Char.toLower) = lowerChars before chars := by
  induction chars generalizing before with
  | nil => rfl
  | cons c chars ih =>
    rw [List.map_cons, lowerChars, lowerChars, lowerAt_map, ← ih (c :: before), List.map_cons]

theorem lowercase_eq_of_map_toLower {text text' : String}
    (h : text.toList.map Char.toLower = text'.toList.map Char.toLower) :
    lowercase text = lowercase text' := by
  rw [lowercase, lowercase, ← lowerChars_map [], h, lowerChars_map []]

end SessionGate.Text
