/-!
Texts cut at every mark. Main statement: the pieces with marks between them are the text again.
-/

namespace SessionGate.Text

/-- The pieces between marks, one more than there are marks. -/
def pieces (mark : Char) : List Char → List (List Char)
  | [] => [[]]
  | c :: rest =>
    if c = mark then [] :: pieces mark rest
    else match pieces mark rest with
      | [] => [[c]]
      | piece :: more => (c :: piece) :: more

theorem pieces_ne_nil (mark : Char) (chars : List Char) : pieces mark chars ≠ [] := by
  cases chars with
  | nil => simp [pieces]
  | cons c rest =>
    rw [pieces]
    split
    · simp
    · split <;> simp

theorem intercalate_pieces (mark : Char) (chars : List Char) :
    [mark].intercalate (pieces mark chars) = chars := by
  induction chars with
  | nil => simp [pieces, List.intercalate]
  | cons c rest ih =>
    rw [pieces]
    cases h : pieces mark rest with
    | nil => exact absurd h (pieces_ne_nil mark rest)
    | cons piece more =>
      rw [h] at ih
      split
      · next hc =>
        subst hc
        rw [← ih]
        simp [List.intercalate, List.intersperse]
      · cases more with
        | nil => simpa [List.intercalate, List.intersperse] using ih
        | cons second others => simpa [List.intercalate, List.intersperse] using ih

theorem not_mem_of_mem_pieces {mark : Char} {chars piece : List Char}
    (h : piece ∈ pieces mark chars) : mark ∉ piece := by
  induction chars generalizing piece with
  | nil => simp_all [pieces]
  | cons c rest ih =>
    rw [pieces] at h
    split at h
    · rcases List.mem_cons.mp h with rfl | h
      · simp
      · exact ih h
    · next hc =>
      cases hp : pieces mark rest with
      | nil => exact absurd hp (pieces_ne_nil mark rest)
      | cons first more =>
        rw [hp] at h ih
        rcases List.mem_cons.mp h with rfl | h
        · intro hm
          rcases List.mem_cons.mp hm with rfl | hm
          · exact hc rfl
          · exact ih (List.mem_cons_self ..) hm
        · exact ih (List.mem_cons_of_mem _ h)

theorem pieces_of_not_mem {mark : Char} {chars : List Char} (h : mark ∉ chars) :
    pieces mark chars = [chars] := by
  induction chars with
  | nil => rfl
  | cons c rest ih =>
    rw [List.mem_cons, not_or] at h
    rw [pieces, if_neg (Ne.symm h.1), ih h.2]

theorem pieces_append {mark : Char} {chars : List Char} (h : mark ∉ chars) (rest : List Char) :
    pieces mark (chars ++ mark :: rest) = chars :: pieces mark rest := by
  induction chars with
  | nil => rw [List.nil_append, pieces, if_pos rfl]
  | cons c more ih =>
    rw [List.mem_cons, not_or] at h
    rw [List.cons_append, pieces, if_neg (Ne.symm h.1), ih h.2]

/-- At a mark the pieces are those in front of it and those behind it. -/
theorem pieces_append_mark (mark : Char) (chars rest : List Char) :
    pieces mark (chars ++ mark :: rest) = pieces mark chars ++ pieces mark rest := by
  induction chars with
  | nil => simp [pieces]
  | cons c more ih =>
    rw [List.cons_append, pieces, pieces, ih]
    split
    · rfl
    · cases h : pieces mark more with
      | nil => exact absurd h (pieces_ne_nil mark more)
      | cons piece others => rfl

end SessionGate.Text
