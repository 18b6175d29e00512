import SessionGate.Proofs.Toml.Marks
import SessionGate.Toml.Quoted

/-!
TOML strings read back as they were written, whichever of the four forms the writer takes. Main
statement: `string?_stringChars`.
-/

namespace SessionGate.Toml

/-- What may come after the backslash of an escape. -/
def isCodeChar (c : Char) : Bool := c.isAlphanum || c == '"' || c == '\\'

theorem isCodeChar_code : ∀ n < 128,
    ['u', '0', '0', upperHex (n / 16), upperHex (n % 16)].all isCodeChar := by
  decide

theorem escape?_code {n : Nat} (h : n < 128) (rest : List Char) :
    escape? ('u' :: '0' :: '0' :: upperHex (n / 16) :: upperHex (n % 16) :: rest) =
      some (Char.ofNat n, rest) := by
  have hvalue : ∀ n < 128, (hex? ['0', '0', upperHex (n / 16), upperHex (n % 16)]).bind
      scalarValue? = some (Char.ofNat n) := by decide
  exact congrArg (Option.map (·, rest)) (hvalue n h)

/-- How a character stands in a basic string, and how many quotes are in a row after it. -/
inductive Stands (lines : Bool) (quotes run : Nat) : Char → List Char → Nat → Prop
  | quote (h : run < quotes) : Stands lines quotes run '"' ['"'] (run + 1)
  | newline (h : lines) : Stands lines quotes run '\n' ['\n'] 0
  | raw {c : Char} (hquote : c ≠ '"') (hescape : c ≠ '\\') (h : isForbidden c = false) :
      Stands lines quotes run c [c] 0
  | escaped {c mark : Char} {code : List Char} (h : ∀ rest, escape? (mark :: code ++ rest) =
      some (c, rest)) (hcode : ∀ d ∈ mark :: code, isCodeChar d) :
      Stands lines quotes run c ('\\' :: mark :: code) 0

theorem stands_basicChars (lines : Bool) (quotes run : Nat) (c : Char) (chars : List Char) :
    ∃ text run', Stands lines quotes run c text run' ∧
      basicChars lines quotes run (c :: chars) = text ++ basicChars lines quotes run' chars := by
  have hshort : ∀ mark d, c = d → (∀ rest, escape? (mark :: rest) = some (d, rest)) →
      isCodeChar mark → ∃ text run', Stands lines quotes run c text run' ∧
        '\\' :: mark :: basicChars lines quotes 0 chars =
          text ++ basicChars lines quotes run' chars := by
    rintro mark d rfl hescape hmark
    exact ⟨['\\', mark], _, .escaped hescape (List.forall_mem_singleton.mpr hmark), rfl⟩
  have hchar : ∀ {n}, c.toNat = n → c = Char.ofNat n := fun h => h ▸ (Char.ofNat_toNat c).symm
  rw [basicChars]
  split
  · next h =>
    subst h
    split
    · next h => exact ⟨_, _, .quote h, rfl⟩
    · exact hshort '"' _ rfl (fun _ => rfl) (by decide)
  next hquote =>
  split
  · next h => exact hshort '\\' _ h (fun _ => rfl) (by decide)
  next hescape =>
  split
  · next h =>
    by_cases hlines : lines
    · rw [if_pos hlines, h]
      exact ⟨_, _, .newline hlines, rfl⟩
    · rw [if_neg hlines]
      exact hshort 'n' _ h (fun _ => rfl) (by decide)
  split
  · next h => exact hshort 't' _ h (fun _ => rfl) (by decide)
  split
  · next h => exact hshort 'r' _ h (fun _ => rfl) (by decide)
  split
  · next h => exact hshort 'b' _ (hchar h) (fun _ => rfl) (by decide)
  split
  · next h => exact hshort 'f' _ (hchar h) (fun _ => rfl) (by decide)
  split
  · next h =>
    have hcode := isCodeChar_code c.toNat (by omega)
    refine ⟨_, _, .escaped (fun rest => ?_) (List.all_eq_true.mp hcode), rfl⟩
    refine (escape?_code (n := c.toNat) (by omega) rest).trans ?_
    rw [Char.ofNat_toNat]
  · next h =>
    refine ⟨_, _, .raw hquote hescape ?_, rfl⟩
    rw [not_or] at h
    simp [isForbidden, h.1, h.2]

theorem newline?_eq_none {c : Char} (h : c ≠ '\n' ∧ c ≠ '\r') (rest : List Char) :
    newline? (c :: rest) = none := by
  unfold newline?
  split <;> simp_all

theorem ne_newline_of_isForbidden {c : Char} (h : isForbidden c = false) : c ≠ '\n' ∧ c ≠ '\r' := by
  constructor
  · rintro rfl
    cases h
  · rintro rfl
    cases h

theorem ne_of_class {p : Char → Bool} {c d : Char} (h : p c) (hd : p d = false) : c ≠ d := by
  rintro rfl
  cases h.symm.trans hd

theorem joinLine?_eq_none {mark : Char} (h : isCodeChar mark) (rest : List Char) :
    joinLine? (mark :: rest) = none := by
  have hspace : mark ≠ ' ' := ne_of_class h (by decide)
  have htab : mark ≠ '\t' := ne_of_class h (by decide)
  have hline : mark ≠ '\n' := ne_of_class h (by decide)
  have hreturn : mark ≠ '\r' := ne_of_class h (by decide)
  have hblank : (mark == ' ' || mark == '\t') = false := by simp [hspace, htab]
  rw [joinLine?, List.dropWhile_cons_of_neg (by simp [hblank])]
  unfold newline?
  split <;> simp_all

theorem oneLine?_basicChars {fuel run : Nat} {seen chars rest : List Char}
    (hfuel : (basicChars false 0 run chars ++ '"' :: rest).length < fuel) :
    oneLine? '"' true fuel seen (basicChars false 0 run chars ++ '"' :: rest) =
      some (seen.reverse ++ chars, rest) := by
  induction chars generalizing fuel seen run with
  | nil =>
    obtain ⟨fuel, rfl⟩ := Nat.exists_eq_succ_of_ne_zero (Nat.ne_zero_of_lt hfuel)
    simp [basicChars, oneLine?]
  | cons c chars ih =>
    obtain ⟨fuel, rfl⟩ := Nat.exists_eq_succ_of_ne_zero (Nat.ne_zero_of_lt hfuel)
    obtain ⟨text, run', hstands, htext⟩ := stands_basicChars false 0 run c chars
    rw [htext, List.append_assoc] at hfuel ⊢
    have hrest : seen.reverse ++ c :: chars = (c :: seen).reverse ++ chars := by simp
    cases hstands with
    | quote h => cases h
    | newline h => cases h
    | raw hquote hescape h =>
      rw [List.singleton_append, oneLine?, if_neg hquote, if_neg fun h => hescape h.1, h,
        if_neg Bool.false_ne_true, hrest]
      exact ih (Nat.lt_of_succ_lt_succ hfuel)
    | @escaped _ mark code h hcode =>
      rw [List.cons_append, oneLine?, if_neg (by decide), if_pos ⟨rfl, rfl⟩, h, hrest]
      refine ih ?_
      simp only [List.cons_append, List.length_cons, List.length_append] at hfuel ⊢
      omega

theorem oneLine?_raw {mark : Char} {escapes : Bool} {fuel : Nat} {seen chars rest : List Char}
    (hchars : ∀ c ∈ chars, c ≠ mark ∧ (escapes → c ≠ '\\') ∧ isForbidden c = false)
    (hfuel : (chars ++ mark :: rest).length < fuel) :
    oneLine? mark escapes fuel seen (chars ++ mark :: rest) = some (seen.reverse ++ chars, rest) := by
  induction chars generalizing fuel seen with
  | nil =>
    obtain ⟨fuel, rfl⟩ := Nat.exists_eq_succ_of_ne_zero (Nat.ne_zero_of_lt hfuel)
    simp [oneLine?]
  | cons c chars ih =>
    obtain ⟨fuel, rfl⟩ := Nat.exists_eq_succ_of_ne_zero (Nat.ne_zero_of_lt hfuel)
    obtain ⟨⟨hmark, hescape, hc⟩, hchars⟩ := List.forall_mem_cons.mp hchars
    have hrest : seen.reverse ++ c :: chars = (c :: seen).reverse ++ chars := by simp
    rw [List.cons_append, oneLine?, if_neg hmark, if_neg fun h => hescape h.2 h.1, hc,
      if_neg Bool.false_ne_true, hrest]
    exact ih hchars (Nat.lt_of_succ_lt_succ hfuel)

theorem takeWhile_marks {mark : Char} (n : Nat) {rest : List Char}
    (h : rest.head? ≠ some mark) :
    (List.replicate n mark ++ rest).takeWhile (· == mark) = List.replicate n mark := by
  have hrest : rest.takeWhile (· == mark) = [] := by
    cases rest with
    | nil => rfl
    | cons c rest =>
      have hc : c ≠ mark := fun hc => h (congrArg some hc)
      rw [List.takeWhile_cons, beq_eq_false_iff_ne.mpr hc]
      rfl
  rw [List.takeWhile_append_of_pos fun c hc => by simp [List.eq_of_mem_replicate hc], hrest,
    List.append_nil]

section

variable {mark : Char} {escapes : Bool} {fuel n : Nat} {seen rest : List Char}

/-- Of the marks at the end of a string the last three close it. -/
theorem manyLines?_closing (hn : n ≤ 2) (hrest : rest.head? ≠ some mark) :
    manyLines? mark escapes (fuel + 1) seen (List.replicate n mark ++ mark :: mark :: mark :: rest) =
      some (seen.reverse ++ List.replicate n mark, rest) := by
  have hmarks : List.replicate n mark ++ mark :: mark :: mark :: rest =
      List.replicate (n + 3) mark ++ rest := by
    rw [← List.replicate_append_replicate, List.append_assoc]
    rfl
  have hrun : min 5 (n + 3) = n + 3 := by omega
  rw [hmarks, List.replicate_succ, List.cons_append, manyLines?, if_pos rfl, ← List.cons_append,
    ← List.replicate_succ, takeWhile_marks _ hrest, List.length_replicate, hrun]
  dsimp only
  rw [if_pos (Nat.le_add_left 3 n), Nat.add_sub_cancel, List.drop_left' List.length_replicate]

/-- Before another character, one or two marks are part of the string. -/
theorem manyLines?_within (hn : n ≤ 1) {c : Char} (hc : c ≠ mark) :
    manyLines? mark escapes (fuel + 1) seen (mark :: (List.replicate n mark ++ c :: rest)) =
      manyLines? mark escapes fuel (mark :: seen) (List.replicate n mark ++ c :: rest) := by
  have hhead : (c :: rest).head? ≠ some mark := fun h => hc (Option.some.inj h)
  have hrun : ¬ 3 ≤ min 5 (n + 1) := by omega
  rw [manyLines?, if_pos rfl, ← List.cons_append, ← List.replicate_succ, takeWhile_marks _ hhead,
    List.length_replicate]
  dsimp only
  rw [if_neg hrun]

end

theorem fewMarks_basicChars {run : Nat} (hrun : run ≤ 2) (chars : List Char) :
    FewMarks '"' (2 - run) (basicChars true 2 run chars) := by
  induction chars generalizing run with
  | nil => exact .all (n := 0) (Nat.zero_le _)
  | cons c chars ih =>
    obtain ⟨text, run', hstands, htext⟩ := stands_basicChars true 2 run c chars
    rw [htext]
    cases hstands with
    | quote h =>
      have hrest := ih h
      generalize basicChars true 2 (run + 1) chars = text at hrest
      cases hrest with
      | @all n hn => exact .all (n := n + 1) (by omega)
      | @before n hn c hc rest => exact .before (n := n + 1) (by omega) hc rest
    | newline h => exact .before (n := 0) (Nat.zero_le _) (by decide) _
    | raw hquote hescape h => exact .before (n := 0) (Nat.zero_le _) hquote _
    | escaped h hcode => exact .before (n := 0) (Nat.zero_le _) (by decide) _

/-- One more mark before marks that do not close a string is part of it, and so is one before marks
that do. -/
theorem manyLines?_mark {mark : Char} {escapes : Bool} {most fuel : Nat}
    {seen text chars rest : List Char} (hmarks : FewMarks mark most text) (hmost : most ≤ 1)
    (hrest : rest.head? ≠ some mark) (h : manyLines? mark escapes fuel (mark :: seen)
      (text ++ mark :: mark :: mark :: rest) = some ((mark :: seen).reverse ++ chars, rest)) :
    manyLines? mark escapes (fuel + 1) seen (mark :: (text ++ mark :: mark :: mark :: rest)) =
      some (seen.reverse ++ mark :: chars, rest) := by
  have hchars : seen.reverse ++ mark :: chars = (mark :: seen).reverse ++ chars := by simp
  rw [hchars]
  cases hmarks with
  | @all n hn =>
    obtain ⟨fuel, rfl⟩ : ∃ n, fuel = n + 1 := by
      cases fuel with
      | zero => cases h
      | succ fuel => exact ⟨fuel, rfl⟩
    rw [← h, manyLines?_closing (by omega) hrest, ← List.cons_append, ← List.replicate_succ,
      manyLines?_closing (by omega) hrest]
    simp [List.replicate_succ]
  | @before n hn c hc more =>
    rw [← h, List.append_assoc, List.cons_append]
    exact manyLines?_within (by omega) hc

theorem manyLines?_basicChars {fuel run : Nat} {seen chars rest : List Char} (hrun : run ≤ 2)
    (hrest : rest.head? ≠ some '"')
    (hfuel : (basicChars true 2 run chars ++ '"' :: '"' :: '"' :: rest).length < fuel) :
    manyLines? '"' true fuel seen (basicChars true 2 run chars ++ '"' :: '"' :: '"' :: rest) =
      some (seen.reverse ++ chars, rest) := by
  induction chars generalizing fuel seen run with
  | nil =>
    obtain ⟨fuel, rfl⟩ := Nat.exists_eq_succ_of_ne_zero (Nat.ne_zero_of_lt hfuel)
    exact manyLines?_closing (n := 0) (Nat.zero_le _) hrest
  | cons c chars ih =>
    obtain ⟨fuel, rfl⟩ := Nat.exists_eq_succ_of_ne_zero (Nat.ne_zero_of_lt hfuel)
    obtain ⟨text, run', hstands, htext⟩ := stands_basicChars true 2 run c chars
    rw [htext, List.append_assoc] at hfuel ⊢
    have hchars : seen.reverse ++ c :: chars = (c :: seen).reverse ++ chars := by simp
    cases hstands with
    | quote h =>
      refine manyLines?_mark (fewMarks_basicChars h chars) (by omega) hrest ?_
      exact ih h (Nat.lt_of_succ_lt_succ hfuel)
    | newline h =>
      rw [List.singleton_append, manyLines?, if_neg (by decide), if_neg (by decide), hchars]
      exact ih (Nat.zero_le _) (Nat.lt_of_succ_lt_succ hfuel)
    | raw hquote hescape h =>
      rw [List.singleton_append, manyLines?, if_neg hquote, if_neg fun h => hescape h.1,
        newline?_eq_none (ne_newline_of_isForbidden h), hchars]
      dsimp only
      rw [h, if_neg Bool.false_ne_true]
      exact ih (Nat.zero_le _) (Nat.lt_of_succ_lt_succ hfuel)
    | @escaped _ mark code h hcode =>
      rw [List.cons_append, manyLines?, if_neg (by decide), if_pos ⟨rfl, rfl⟩, List.cons_append,
        joinLine?_eq_none (hcode mark List.mem_cons_self), ← List.cons_append, hchars]
      dsimp only
      rw [h]
      refine ih (Nat.zero_le _) ?_
      simp only [List.cons_append, List.length_cons, List.length_append] at hfuel ⊢
      omega

theorem manyLines?_literal {mark : Char} {fuel : Nat} {seen chars rest : List Char}
    (hchars : ∀ c ∈ chars, c = '\n' ∨ isForbidden c = false) (hrun : longestRun mark chars ≤ 2)
    (hrest : rest.head? ≠ some mark)
    (hfuel : (chars ++ mark :: mark :: mark :: rest).length < fuel) :
    manyLines? mark false fuel seen (chars ++ mark :: mark :: mark :: rest) =
      some (seen.reverse ++ chars, rest) := by
  induction chars generalizing fuel seen with
  | nil =>
    obtain ⟨fuel, rfl⟩ := Nat.exists_eq_succ_of_ne_zero (Nat.ne_zero_of_lt hfuel)
    exact manyLines?_closing (n := 0) (Nat.zero_le _) hrest
  | cons c chars ih =>
    obtain ⟨fuel, rfl⟩ := Nat.exists_eq_succ_of_ne_zero (Nat.ne_zero_of_lt hfuel)
    obtain ⟨hc, hchars⟩ := List.forall_mem_cons.mp hchars
    have hmore := @ih _ (c :: seen) hchars
      (Nat.le_trans (longestRun_le_cons mark c chars) hrun) (Nat.lt_of_succ_lt_succ hfuel)
    by_cases hmark : c = mark
    · subst hmark
      exact manyLines?_mark (fewMarks_of_longestRun hrun).tail (Nat.le_refl 1) hrest hmore
    · have hseen : seen.reverse ++ c :: chars = (c :: seen).reverse ++ chars := by simp
      rw [List.cons_append, manyLines?, if_neg hmark, if_neg (by simp), hseen, ← hmore]
      rcases hc with rfl | hc
      · rfl
      · rw [newline?_eq_none (ne_newline_of_isForbidden hc)]
        dsimp only
        rw [hc, if_neg Bool.false_ne_true]

theorem string?_one {mark : Char} {text rest : List Char} (htext : text.head? ≠ some mark)
    (hrest : text = [] → rest.head? ≠ some mark) :
    string? (mark :: (text ++ mark :: rest)) =
      (oneLine? mark (mark = '"') ((text ++ mark :: rest).length + 2) [] (text ++ mark :: rest)).map
        fun (s, r) => (String.ofList s, r) := by
  have hmarks : ∀ more, text ++ mark :: rest ≠ mark :: mark :: more := by
    intro more h
    cases text with
    | nil => exact hrest rfl (by rw [(List.cons.inj h).2]; rfl)
    | cons c text => exact htext (congrArg some (List.cons.inj h).1)
  generalize text ++ mark :: rest = chars at hmarks
  match chars with
  | [] => rfl
  | [b] => rfl
  | b :: c :: more =>
    rw [string?, if_neg]
    · rfl
    · rintro ⟨rfl, rfl⟩
      exact hmarks more rfl

theorem string?_many (mark : Char) {start text : List Char}
    (hstart : start = ['\n'] ∨ start = [] ∧ newline? text = none) :
    string? (mark :: mark :: mark :: (start ++ text)) =
      (manyLines? mark (mark = '"') (text.length + 1) [] text).map
        fun (s, r) => (String.ofList s, r) := by
  have hskip : (newline? (start ++ text)).getD (start ++ text) = text := by
    rcases hstart with rfl | ⟨rfl, h⟩
    · rfl
    · rw [List.nil_append, h]
      rfl
  rw [string?, if_pos ⟨rfl, rfl⟩, hskip]

theorem isForbidden_eq_false {c : Char} (h : needsEscape c = false) (hline : c ≠ '\n') :
    isForbidden c = false := by
  simp only [needsEscape, isForbidden, Bool.or_eq_false_iff, Bool.and_eq_false_iff] at h ⊢
  refine ⟨?_, h.2⟩
  rcases h.1 with (h | h) | h
  · exact .inl h
  · exact .inr h
  · simp [hline] at h

theorem forall_isForbidden {chars : List Char} (h : chars.any needsEscape = false) :
    ∀ c ∈ chars, c = '\n' ∨ isForbidden c = false := by
  intro c hc
  by_cases hline : c = '\n'
  · exact .inl hline
  · have hcode : ¬ needsEscape c := List.any_eq_false.mp h c hc
    exact .inr (isForbidden_eq_false (Bool.eq_false_iff.mpr hcode) hline)

theorem literal_of_formOf {chars : List Char} (h : formOf chars = .literal) :
    ∀ c ∈ chars, c ≠ '\'' ∧ isForbidden c = false := by
  unfold formOf at h
  dsimp only at h
  split at h
  · cases h
  split at h
  · next hliteral =>
    simp only [Bool.and_eq_true, Bool.not_eq_true', beq_iff_eq] at hliteral
    obtain ⟨⟨hcodes, hticks⟩, hlines⟩ := hliteral
    intro c hc
    refine ⟨fun htick => not_mem_of_longestRun hticks (htick ▸ hc), ?_⟩
    refine (forall_isForbidden hcodes c hc).resolve_left fun hline => ?_
    rw [hline, ← List.contains_iff_mem, hlines] at hc
    cases hc
  · (repeat' split at h) <;> cases h

theorem literalLines_of_formOf {chars : List Char} (h : formOf chars = .literalLines) :
    (∀ c ∈ chars, c = '\n' ∨ isForbidden c = false) ∧ longestRun '\'' chars ≤ 2 := by
  unfold formOf at h
  dsimp only at h
  split at h
  · cases h
  split at h
  · cases h
  split at h
  · cases h
  split at h
  · next hliteral =>
    simp only [Bool.and_eq_true, Bool.not_eq_true', decide_eq_true_eq] at hliteral
    exact ⟨forall_isForbidden hliteral.1, hliteral.2⟩
  · split at h <;> cases h

theorem head?_basicChars (chars : List Char) :
    (basicChars false 0 0 chars).head? ≠ some '"' := by
  cases chars with
  | nil => exact nofun
  | cons c chars =>
    obtain ⟨text, run', hstands, htext⟩ := stands_basicChars false 0 0 c chars
    rw [htext]
    cases hstands with
    | quote h => cases h
    | newline h => cases h
    | raw hquote hescape h => exact fun h => hquote (Option.some.inj h)
    | escaped h hcode => exact fun h => absurd (Option.some.inj h) (by decide)

section

variable {chars rest : List Char}

theorem head?_basicLines (hline : '\n' ∉ chars) (rest : List Char) :
    ∀ c ∈ (basicChars true 2 0 chars ++ '"' :: rest).head?, c ≠ '\n' ∧ c ≠ '\r' := by
  intro c hc
  cases chars with
  | nil =>
    obtain rfl := Option.some.inj hc
    decide
  | cons d chars =>
    obtain ⟨text, run', hstands, htext⟩ := stands_basicChars true 2 0 d chars
    rw [htext] at hc
    cases hstands with
    | quote h =>
      obtain rfl := Option.some.inj hc
      decide
    | newline h => exact absurd List.mem_cons_self hline
    | raw hquote hescape h =>
      obtain rfl := Option.some.inj hc
      exact ne_newline_of_isForbidden h
    | escaped h hcode =>
      obtain rfl := Option.some.inj hc
      decide

/-- The line end before the first line of a string is not part of it. -/
theorem start_of_contains {text : List Char}
    (h : '\n' ∉ chars → ∀ c ∈ text.head?, c ≠ '\n' ∧ c ≠ '\r') :
    (if chars.contains '\n' then ['\n'] else []) = ['\n'] ∨
      (if chars.contains '\n' then ['\n'] else []) = [] ∧ newline? text = none := by
  by_cases hline : '\n' ∈ chars
  · rw [if_pos (List.contains_iff_mem.mpr hline)]
    exact .inl rfl
  · rw [if_neg fun h => hline (List.contains_iff_mem.mp h)]
    refine .inr ⟨rfl, ?_⟩
    cases text with
    | nil => rfl
    | cons c text => exact newline?_eq_none (h hline c rfl) text

theorem string?_stringChars (hquote : rest.head? ≠ some '"') (htick : rest.head? ≠ some '\'') :
    string? (stringChars chars ++ rest) = some (String.ofList chars, rest) := by
  unfold stringChars
  dsimp only
  cases hform : formOf chars with
  | basic =>
    have htext : '"' :: basicChars false 0 0 chars ++ ['"'] ++ rest =
        '"' :: (basicChars false 0 0 chars ++ '"' :: rest) := by simp
    rw [htext, string?_one (head?_basicChars chars) fun _ => hquote, decide_eq_true rfl,
      oneLine?_basicChars (Nat.lt_succ_of_lt (Nat.lt_succ_self _))]
    rfl
  | literal =>
    have hchars := literal_of_formOf hform
    have hraw : ∀ c ∈ chars, c ≠ '\'' ∧ (false → c ≠ '\\') ∧ isForbidden c = false :=
      fun c hc => ⟨(hchars c hc).1, nofun, (hchars c hc).2⟩
    have htext : '\'' :: chars ++ ['\''] ++ rest = '\'' :: (chars ++ '\'' :: rest) := by simp
    have hhead : chars.head? ≠ some '\'' := fun h => (hchars _ (List.mem_of_mem_head? h)).1 rfl
    rw [htext, string?_one hhead fun _ => htick, decide_eq_false (by decide),
      oneLine?_raw hraw (Nat.lt_succ_of_lt (Nat.lt_succ_self _))]
    rfl
  | basicLines =>
    have htext : ∀ start : List Char,
        ['"', '"', '"'] ++ start ++ basicChars true 2 0 chars ++ ['"', '"', '"'] ++ rest =
          '"' :: '"' :: '"' :: (start ++ (basicChars true 2 0 chars ++ '"' :: '"' :: '"' :: rest)) := by
      simp
    rw [htext, string?_many '"' (start_of_contains ?_), decide_eq_true rfl,
      manyLines?_basicChars (Nat.zero_le 2) hquote (Nat.lt_succ_self _)]
    · rfl
    · exact fun hline => head?_basicLines hline _
  | literalLines =>
    obtain ⟨hchars, hrun⟩ := literalLines_of_formOf hform
    have htext : ∀ start : List Char,
        ['\'', '\'', '\''] ++ start ++ chars ++ ['\'', '\'', '\''] ++ rest =
          '\'' :: '\'' :: '\'' :: (start ++ (chars ++ '\'' :: '\'' :: '\'' :: rest)) := by
      simp
    rw [htext, string?_many '\'' (start_of_contains ?_), decide_eq_false (by decide),
      manyLines?_literal hchars hrun htick (Nat.lt_succ_self _)]
    · rfl
    · intro hline c hc
      cases chars with
      | nil =>
        obtain rfl := Option.some.inj hc
        decide
      | cons d chars =>
        obtain rfl := Option.some.inj hc
        refine ne_newline_of_isForbidden ((hchars d List.mem_cons_self).resolve_left fun h => ?_)
        exact hline (h ▸ List.mem_cons_self)

end

end SessionGate.Toml
