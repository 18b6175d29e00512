import Mathlib.Data.List.TakeWhile
import SessionGate.Text.Blank

/-!
Blanks at the ends of a text and between its words. Trimming takes the blanks off both ends and nothing
else, and a word is what stands between blanks: `words_eq_cons_iff` says where the first one stands and
what the others are words of.
-/

namespace SessionGate.Text

def Blanks (chars : List Char) : Prop := ∀ c ∈ chars, isBlank c = true

def Solid (chars : List Char) : Prop := ∀ c ∈ chars, isBlank c = false

theorem dropWhile_append_eq {p : α → Bool} {front rest : List α} (hfront : ∀ a ∈ front, p a = true)
    (hrest : ∀ a ∈ rest.head?, p a = false) : (front ++ rest).dropWhile p = rest := by
  rw [List.dropWhile_append_of_pos hfront]
  cases rest with
  | nil => rfl
  | cons a rest => rw [List.dropWhile_cons, hrest a rfl]; rfl

theorem reverse_dropWhile_append {p : α → Bool} {rest back : List α} (hback : ∀ a ∈ back, p a = true)
    (hrest : ∀ a ∈ rest.getLast?, p a = false) :
    ((rest ++ back).reverse.dropWhile p).reverse = rest := by
  have hback : ∀ a ∈ back.reverse, p a = true := fun a ha => hback a (List.mem_reverse.mp ha)
  rw [List.reverse_append, dropWhile_append_eq hback (by rwa [List.head?_reverse]), List.reverse_reverse]

/-- What is cut off the end of a list is a run of what is not wanted there. -/
theorem exists_reverse_dropWhile (p : α → Bool) (l : List α) :
    ∃ back, (∀ a ∈ back, p a = true) ∧ l = (l.reverse.dropWhile p).reverse ++ back := by
  refine ⟨(l.reverse.takeWhile p).reverse, fun a ha => ?_, ?_⟩
  · exact List.mem_takeWhile_imp (List.mem_reverse.mp ha)
  · rw [← List.reverse_append, List.takeWhile_append_dropWhile, List.reverse_reverse]

theorem trimChars_append {before core after : List Char} (hbefore : Blanks before)
    (hafter : Blanks after) (hfirst : ∀ c ∈ core.head?, isBlank c = false)
    (hlast : ∀ c ∈ core.getLast?, isBlank c = false) :
    trimChars (before ++ core ++ after) = core := by
  cases core with
  | nil =>
    have hblank : ∀ c ∈ before ++ [] ++ after, isBlank c = true := by
      simpa [or_imp, forall_and] using ⟨hbefore, hafter⟩
    rw [trimChars, List.dropWhile_eq_nil_iff.mpr hblank]
    rfl
  | cons c core =>
    rw [trimChars, List.append_assoc, dropWhile_append_eq hbefore (by simpa using hfirst),
      reverse_dropWhile_append hafter hlast]

theorem exists_trimChars (chars : List Char) : ∃ before after, Blanks before ∧ Blanks after ∧
    chars = before ++ trimChars chars ++ after := by
  obtain ⟨after, hafter, hchars⟩ := exists_reverse_dropWhile isBlank (chars.dropWhile isBlank)
  refine ⟨chars.takeWhile isBlank, after, fun c hc => List.mem_takeWhile_imp hc, hafter, ?_⟩
  rw [List.append_assoc, trimChars, ← hchars, List.takeWhile_append_dropWhile]

theorem wordsFrom_append {first : List Char} (h : Solid first) (word rest : List Char) :
    wordsFrom word (first ++ rest) = wordsFrom (first.reverse ++ word) rest := by
  induction first generalizing word with
  | nil => rfl
  | cons c first ih =>
    rw [Solid, List.forall_mem_cons] at h
    rw [List.cons_append, wordsFrom, if_neg (by rw [h.1]; decide), ih h.2, List.reverse_cons,
      List.append_assoc]
    rfl

theorem words_blank {c : Char} (h : isBlank c = true) (rest : List Char) :
    words (c :: rest) = words rest := by
  rw [words, wordsFrom, if_pos h, if_pos rfl, words]

theorem words_blanks {before : List Char} (h : Blanks before) (rest : List Char) :
    words (before ++ rest) = words rest := by
  induction before with
  | nil => rfl
  | cons c before ih =>
    rw [Blanks, List.forall_mem_cons] at h
    rw [List.cons_append, words_blank h.1, ih h.2]

theorem words_word {word rest : List Char} (hword : Solid word) (hne : word ≠ [])
    (hrest : ∀ c ∈ rest.head?, isBlank c = true) : words (word ++ rest) = word :: words rest := by
  rw [words, wordsFrom_append hword, List.append_nil]
  have hne : word.reverse ≠ [] := mt List.reverse_eq_nil_iff.mp hne
  cases rest with
  | nil => rw [wordsFrom, if_neg hne, List.reverse_reverse]; rfl
  | cons c rest =>
    have hc : isBlank c = true := hrest c rfl
    rw [wordsFrom, if_pos hc, if_neg hne, List.reverse_reverse, words_blank hc, words]

/-- The first word of a text, unless it is all blank. -/
theorem blanks_or_exists_word (chars : List Char) : Blanks chars ∨ ∃ before word rest,
    chars = before ++ word ++ rest ∧ Blanks before ∧ Solid word ∧ word ≠ [] ∧
      ∀ c ∈ rest.head?, isBlank c = true := by
  cases hchars : chars.dropWhile isBlank with
  | nil => exact .inl (List.dropWhile_eq_nil_iff.mp hchars)
  | cons c more =>
    have hc : isBlank c = false := by
      have hhead := List.head?_dropWhile_not isBlank chars
      rw [hchars] at hhead
      simpa using hhead
    refine .inr ⟨chars.takeWhile isBlank, (c :: more).takeWhile (!isBlank ·),
      (c :: more).dropWhile (!isBlank ·), ?_, fun d hd => List.mem_takeWhile_imp hd, fun d hd => ?_,
      ?_, fun d hd => ?_⟩
    · rw [List.append_assoc, List.takeWhile_append_dropWhile, ← hchars,
        List.takeWhile_append_dropWhile]
    · simpa using List.mem_takeWhile_imp hd
    · rw [List.takeWhile_cons, hc]
      simp
    · have hhead := List.head?_dropWhile_not (!isBlank ·) (c :: more)
      rw [Option.mem_def.mp hd] at hhead
      simpa using hhead

theorem words_eq_nil_iff {chars : List Char} : words chars = [] ↔ Blanks chars := by
  constructor
  · intro h
    rcases blanks_or_exists_word chars with hblanks | ⟨before, word, rest, rfl, hbefore, hword, hne, hrest⟩
    · exact hblanks
    · rw [List.append_assoc, words_blanks hbefore, words_word hword hne hrest] at h
      cases h
  · intro h
    have hwords := words_blanks h []
    rwa [List.append_nil] at hwords

theorem words_eq_cons_iff {chars word : List Char} {others : List (List Char)} :
    words chars = word :: others ↔ ∃ before rest, chars = before ++ word ++ rest ∧ Blanks before ∧
      Solid word ∧ word ≠ [] ∧ (∀ c ∈ rest.head?, isBlank c = true) ∧ words rest = others := by
  constructor
  · intro h
    rcases blanks_or_exists_word chars with hblanks | ⟨before, first, rest, rfl, hbefore, hfirst, hne, hrest⟩
    · rw [words_eq_nil_iff.mpr hblanks] at h
      cases h
    · rw [List.append_assoc, words_blanks hbefore, words_word hfirst hne hrest] at h
      obtain ⟨rfl, hothers⟩ := List.cons.inj h
      exact ⟨before, rest, rfl, hbefore, hfirst, hne, hrest, hothers⟩
  · rintro ⟨before, rest, rfl, hbefore, hword, hne, hrest, rfl⟩
    rw [List.append_assoc, words_blanks hbefore, words_word hword hne hrest]

/-- Two words, and blanks around and between them. -/
theorem words_eq_pair_iff {chars first second : List Char} : words chars = [first, second] ↔
    ∃ before gap after, chars = before ++ first ++ gap ++ second ++ after ∧
      Blanks before ∧ Blanks gap ∧ Blanks after ∧ gap ≠ [] ∧
      Solid first ∧ first ≠ [] ∧ Solid second ∧ second ≠ [] := by
  constructor
  · intro h
    obtain ⟨before, rest, rfl, hbefore, hfirst, hfirstne, hgap, hrest⟩ := words_eq_cons_iff.mp h
    obtain ⟨gap, after, rfl, hgaps, hsecond, hsecondne, -, hafter⟩ := words_eq_cons_iff.mp hrest
    refine ⟨before, gap, after, by simp only [List.append_assoc], hbefore, hgaps,
      words_eq_nil_iff.mp hafter, ?_, hfirst, hfirstne, hsecond, hsecondne⟩
    -- Without a gap the second word would begin with a blank.
    rintro rfl
    obtain ⟨c, second, rfl⟩ := List.exists_cons_of_ne_nil hsecondne
    have hblank := hgap c rfl
    rw [hsecond c List.mem_cons_self] at hblank
    cases hblank
  · rintro ⟨before, gap, after, rfl, hbefore, hgaps, hafter, hgapne, hfirst, hfirstne, hsecond, hsecondne⟩
    have hgap : ∀ c ∈ (gap ++ second ++ after).head?, isBlank c = true := by
      obtain ⟨d, gap, rfl⟩ := List.exists_cons_of_ne_nil hgapne
      intro c hc
      obtain rfl := Option.some.inj hc
      exact hgaps d List.mem_cons_self
    have hend : ∀ c ∈ after.head?, isBlank c = true :=
      fun c hc => hafter c (List.mem_of_mem_head? hc)
    have hsecond : words (gap ++ second ++ after) = [second] :=
      words_eq_cons_iff.mpr ⟨gap, after, rfl, hgaps, hsecond, hsecondne, hend,
        words_eq_nil_iff.mpr hafter⟩
    exact words_eq_cons_iff.mpr ⟨before, gap ++ second ++ after, by simp only [List.append_assoc],
      hbefore, hfirst, hfirstne, hgap, hsecond⟩

end SessionGate.Text
