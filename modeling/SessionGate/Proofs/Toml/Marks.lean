import SessionGate.Toml.Writer

/-!
How many of one mark stand in a row in a text. What the writer counts over a whole text bounds the
marks at its front. Main statement: `fewMarks_of_longestRun`.
-/

namespace SessionGate.Toml

/-- The marks that a text begins with are few, and it ends or goes on with something else. -/
inductive FewMarks (mark : Char) (most : Nat) : List Char → Prop
  | all {n : Nat} (h : n ≤ most) : FewMarks mark most (List.replicate n mark)
  | before {n : Nat} (h : n ≤ most) {c : Char} (hc : c ≠ mark) (rest : List Char) :
      FewMarks mark most (List.replicate n mark ++ c :: rest)

theorem FewMarks.tail {mark : Char} {most : Nat} {chars : List Char}
    (h : FewMarks mark (most + 1) (mark :: chars)) : FewMarks mark most chars := by
  generalize htext : mark :: chars = text at h
  cases h with
  | @all n hn =>
    cases n with
    | zero => cases htext
    | succ n =>
      obtain rfl := (List.cons.inj htext).2
      exact .all (by omega)
  | @before n hn c hc rest =>
    cases n with
    | zero => exact absurd (List.cons.inj htext).1.symm hc
    | succ n =>
      obtain rfl := (List.cons.inj htext).2
      exact .before (by omega) hc rest

/-- The longest run so far and the run at hand, after one more character. -/
def countRun (mark : Char) (counts : Nat × Nat) (c : Char) : Nat × Nat :=
  if c = mark then (max counts.1 (counts.2 + 1), counts.2 + 1) else (counts.1, 0)

theorem longestRun_eq (mark : Char) (chars : List Char) :
    longestRun mark chars = (chars.foldl (countRun mark) (0, 0)).1 := rfl

theorem foldl_countRun_mono (mark : Char) (chars : List Char) {a b a' b' : Nat} (ha : a ≤ a')
    (hb : b ≤ b') : (chars.foldl (countRun mark) (a, b)).1 ≤
      (chars.foldl (countRun mark) (a', b')).1 := by
  induction chars generalizing a b a' b' with
  | nil => exact ha
  | cons c chars ih =>
    simp only [List.foldl_cons, countRun]
    split
    · exact ih (by omega) (by omega)
    · exact ih ha (Nat.le_refl 0)

theorem le_foldl_countRun (mark : Char) (chars : List Char) (a b : Nat) :
    a ≤ (chars.foldl (countRun mark) (a, b)).1 := by
  induction chars generalizing a b with
  | nil => exact Nat.le_refl a
  | cons c chars ih =>
    simp only [List.foldl_cons, countRun]
    split
    · exact Nat.le_trans (Nat.le_max_left a (b + 1)) (ih _ _)
    · exact ih a 0

theorem foldl_countRun_replicate (mark : Char) (n a : Nat) :
    (List.replicate n mark).foldl (countRun mark) (a, a) = (a + n, a + n) := by
  induction n generalizing a with
  | zero => rfl
  | succ n ih =>
    have hstep : countRun mark (a, a) mark = (a + 1, a + 1) := by
      rw [countRun, if_pos rfl, Nat.max_eq_right (Nat.le_succ a)]
    rw [List.replicate_succ, List.foldl_cons, hstep, ih, Nat.add_assoc, Nat.add_comm 1 n]

theorem longestRun_le_cons (mark c : Char) (chars : List Char) :
    longestRun mark chars ≤ longestRun mark (c :: chars) :=
  foldl_countRun_mono mark chars (Nat.zero_le _) (Nat.zero_le _)

theorem le_longestRun (mark : Char) (n : Nat) (rest : List Char) :
    n ≤ longestRun mark (List.replicate n mark ++ rest) := by
  rw [longestRun_eq, List.foldl_append, foldl_countRun_replicate, Nat.zero_add]
  exact le_foldl_countRun mark rest n n

theorem exists_fewMarks (mark : Char) (chars : List Char) :
    ∃ n rest, chars = List.replicate n mark ++ rest ∧ rest.head? ≠ some mark := by
  induction chars with
  | nil => exact ⟨0, [], rfl, nofun⟩
  | cons c chars ih =>
    by_cases hc : c = mark
    · obtain ⟨n, rest, rfl, hrest⟩ := ih
      exact ⟨n + 1, rest, by rw [hc, List.replicate_succ, List.cons_append], hrest⟩
    · exact ⟨0, c :: chars, rfl, fun h => hc (Option.some.inj h)⟩

theorem fewMarks_of_longestRun {mark : Char} {most : Nat} {chars : List Char}
    (h : longestRun mark chars ≤ most) : FewMarks mark most chars := by
  obtain ⟨n, rest, rfl, hrest⟩ := exists_fewMarks mark chars
  have hn : n ≤ most := Nat.le_trans (le_longestRun mark n rest) h
  cases rest with
  | nil =>
    rw [List.append_nil]
    exact .all hn
  | cons c rest => exact .before hn (fun hc => hrest (congrArg some hc)) rest

theorem not_mem_of_longestRun {mark : Char} {chars : List Char} (h : longestRun mark chars = 0) :
    mark ∉ chars := by
  induction chars with
  | nil => exact List.not_mem_nil
  | cons c chars ih =>
    have hrest := Nat.le_trans (longestRun_le_cons mark c chars) (Nat.le_of_eq h)
    rw [List.mem_cons, not_or]
    refine ⟨fun hc => ?_, ih (Nat.le_zero.mp hrest)⟩
    subst hc
    have hone := le_longestRun mark 1 chars
    exact absurd (Nat.le_trans hone (Nat.le_of_eq h)) (by decide)

end SessionGate.Toml
