import Mathlib.Data.List.Count
import SessionGate.Proofs.Toml.Clean
import SessionGate.Proofs.Toml.Quoted

/-!
Texts that stand between quotes as they are. A reader takes them back unchanged, and no other text comes
back as what was written: escapes only make a string shorter, and a string that went on beyond the quote
after the text would have too many of some character that no escape takes in. Main statements:
`string?_raw`, `raw_of_string?`.
-/

namespace SessionGate.Toml

/-- A character that stands for itself in a basic string on one line. -/
def isRaw (c : Char) : Bool := c != '"' && c != '\\' && !isForbidden c

theorem isRaw_iff {c : Char} : isRaw c ↔ c ≠ '"' ∧ c ≠ '\\' ∧ isForbidden c = false := by
  simp [isRaw, and_assoc]

theorem isForbidden_of_all {chars : List Char} (h : chars.all (!isForbidden ·)) :
    ∀ c ∈ chars, isForbidden c = false :=
  fun c hc => by simpa using List.all_eq_true.mp h c hc

theorem string?_raw {text rest : List Char} (htext : ∀ c ∈ text, isRaw c)
    (hrest : text = [] → rest.head? ≠ some '"') :
    string? ('"' :: (text ++ '"' :: rest)) = some (String.ofList text, rest) := by
  have hhead : text.head? ≠ some '"' := fun h =>
    (isRaw_iff.mp (htext _ (List.mem_of_head? h))).1 rfl
  have hline := @oneLine?_raw '"' true ((text ++ '"' :: rest).length + 2) [] text rest
    (fun c hc => ⟨(isRaw_iff.mp (htext c hc)).1, fun _ => (isRaw_iff.mp (htext c hc)).2.1,
      (isRaw_iff.mp (htext c hc)).2.2⟩) (by omega)
  rw [string?_one hhead hrest, show decide ('"' = '"') = true from rfl, hline]
  rfl

/-- A character that an escape, or a line that goes on, may take in. -/
def isLoose (c : Char) : Bool := isCodeChar c || c == ' ' || c == '\t' || c == '\n' || c == '\r'

theorem isLoose_of_isCodeChar {c : Char} (h : isCodeChar c) : isLoose c := by
  simp [isLoose, h]

/-- What is written of a string, and what it reads as: characters that stand for themselves, and codes
that stand for less than they take. -/
inductive Spells (p : Char → Prop) : List Char → List Char → Prop
  | nil : Spells p [] []
  | raw {c : Char} {written read : List Char} (hc : p c) (h : Spells p written read) :
      Spells p (c :: written) (c :: read)
  | code {code meant written read : List Char} (hcode : ∀ d ∈ code, isLoose d)
      (hshort : meant.length < code.length) (h : Spells p written read) :
      Spells p (code ++ written) (meant ++ read)

namespace Spells

variable {p : Char → Prop} {written read : List Char}

theorem count_le (h : Spells p written read) {m : Char} (hm : isLoose m = false) :
    written.count m ≤ read.count m := by
  induction h with
  | nil => exact Nat.le_refl _
  | raw hc h ih =>
    rw [List.count_cons, List.count_cons]
    exact Nat.add_le_add_right ih _
  | @code code meant written read hcode hshort h ih =>
    have hnone : code.count m = 0 := List.count_eq_zero.mpr fun hmem => by
      cases hm.symm.trans (hcode m hmem)
    rw [List.count_append, List.count_append, hnone]
    omega

theorem length_le (h : Spells p written read) : read.length ≤ written.length := by
  induction h with
  | nil => exact Nat.le_refl _
  | raw hc h ih => exact Nat.succ_le_succ ih
  | code hcode hshort h ih =>
    simp only [List.length_append]
    omega

theorem eq_of_length_le (h : Spells p written read) (hlength : written.length ≤ read.length) :
    written = read ∧ ∀ c ∈ read, p c := by
  induction h with
  | nil => exact ⟨rfl, fun _ h => (List.not_mem_nil h).elim⟩
  | raw hc h ih =>
    obtain ⟨rfl, hread⟩ := ih (Nat.le_of_succ_le_succ hlength)
    exact ⟨rfl, List.forall_mem_cons.mpr ⟨hc, hread⟩⟩
  | code hcode hshort h ih =>
    have hle := h.length_le
    simp only [List.length_append] at hlength
    omega

theorem skip {code : List Char} (hcode : ∀ d ∈ code, isLoose d) (hne : code ≠ [])
    (h : Spells p written read) : Spells p (code ++ written) read :=
  @Spells.code p code [] written read hcode (List.length_pos_iff.mpr hne) h

/-- A backslash and a code that stand for one character. -/
theorem escape {code : List Char} (hne : code ≠ []) (hcode : ∀ d ∈ code, isCodeChar d)
    (h : Spells p written read) (c : Char) : Spells p ('\\' :: code ++ written) (c :: read) := by
  have hloose : ∀ d ∈ '\\' :: code, isLoose d :=
    List.forall_mem_cons.mpr ⟨by decide, fun d hd => isLoose_of_isCodeChar (hcode d hd)⟩
  exact @Spells.code p ('\\' :: code) [c] written read hloose
    (Nat.succ_lt_succ (List.length_pos_iff.mpr hne)) h

theorem replicate {c : Char} (hc : p c) (h : Spells p written read) (n : Nat) :
    Spells p (List.replicate n c ++ written) (List.replicate n c ++ read) := by
  induction n with
  | zero => exact h
  | succ n ih => exact .raw hc ih

end Spells

section

variable {chars rest : List Char}

theorem isCodeChar_of_digitIn {base n : Nat} {c : Char} (h : digitIn base c = some n) :
    isCodeChar c := by
  rw [digitIn] at h
  obtain ⟨hv, -⟩ := Option.filter_eq_some_iff.mp h
  have hclass : (c.isUpper || c.isLower) || c.isDigit := by
    simp only [Bool.or_eq_true]
    split at hv
    · next hc => exact .inr (Bool.and_eq_true_iff.mpr ⟨decide_eq_true hc.1, decide_eq_true hc.2⟩)
    · split at hv
      · next hc =>
        have hle : c ≤ 'z' := Nat.le_trans hc.2 (by decide)
        exact .inl (.inr (Bool.and_eq_true_iff.mpr ⟨decide_eq_true hc.1, decide_eq_true hle⟩))
      · split at hv
        · next hc =>
          have hle : c ≤ 'Z' := Nat.le_trans hc.2 (by decide)
          exact .inl (.inl (decide_eq_true ⟨hc.1, hle⟩))
        · cases hv
  have halphanum : c.isAlphanum := hclass
  rw [isCodeChar, halphanum]
  rfl

theorem isCodeChar_of_hex? {digits : List Char} {n : Nat} (h : hex? digits = some n) :
    ∀ d ∈ digits, isCodeChar d := by
  unfold hex? at h
  generalize 0 = start at h
  induction digits generalizing start with
  | nil => exact fun _ h => (List.not_mem_nil h).elim
  | cons c digits ih =>
    rw [List.foldlM_cons] at h
    obtain ⟨next, hnext, h⟩ := Option.bind_eq_some_iff.mp h
    obtain ⟨d, hd, -⟩ := Option.map_eq_some_iff.mp hnext
    exact List.forall_mem_cons.mpr ⟨isCodeChar_of_digitIn hd, ih _ h⟩

theorem isCodeChar_of_shortEscape? {c d : Char} (h : shortEscape? c = some d) : isCodeChar c := by
  unfold shortEscape? at h
  split at h <;> first | decide | cases h

theorem exists_code_of_escape? {c : Char} (h : escape? chars = some (c, rest)) :
    ∃ code, chars = code ++ rest ∧ code ≠ [] ∧ ∀ d ∈ code, isCodeChar d := by
  cases chars with
  | nil => cases h
  | cons d more =>
    rw [escape?] at h
    dsimp only at h
    generalize hwidth : (if d = 'x' then 2 else if d = 'u' then 4 else if d = 'U' then 8 else 0) =
      width at h
    split at h
    · obtain ⟨e, he, heq⟩ := Option.map_eq_some_iff.mp h
      obtain ⟨-, rfl⟩ := Prod.mk.inj heq
      exact ⟨[d], rfl, List.cons_ne_nil _ _,
        List.forall_mem_singleton.mpr (isCodeChar_of_shortEscape? he)⟩
    · next hne =>
      have hd : isCodeChar d := by
        by_contra hno
        refine hne ?_
        rw [← hwidth, if_neg, if_neg, if_neg] <;>
        · rintro rfl
          exact hno (by decide)
      split at h
      · cases h
      · obtain ⟨e, he, heq⟩ := Option.map_eq_some_iff.mp h
        obtain ⟨-, rfl⟩ := Prod.mk.inj heq
        obtain ⟨n, hn, -⟩ := Option.bind_eq_some_iff.mp he
        exact ⟨d :: more.take width, by simp, List.cons_ne_nil _ _,
          List.forall_mem_cons.mpr ⟨hd, isCodeChar_of_hex? hn⟩⟩

theorem newline?_eq_some (h : newline? chars = some rest) :
    chars = '\n' :: rest ∨ chars = '\r' :: '\n' :: rest := by
  unfold newline? at h
  split at h
  · exact .inl (congrArg ('\n' :: ·) (Option.some.inj h))
  · exact .inr (congrArg ('\r' :: '\n' :: ·) (Option.some.inj h))
  · cases h

theorem exists_code_of_newline? (h : newline? chars = some rest) :
    ∃ code, chars = code ++ rest ∧ ∀ d ∈ code, isLoose d := by
  rcases newline?_eq_some h with rfl | rfl
  · exact ⟨['\n'], rfl, List.all_eq_true.mp rfl⟩
  · exact ⟨['\r', '\n'], rfl, List.all_eq_true.mp rfl⟩

theorem exists_code_of_joinLine? (h : joinLine? chars = some rest) :
    ∃ code, chars = code ++ rest ∧ ∀ d ∈ code, isLoose d := by
  rw [joinLine?] at h
  split at h
  · next after hafter =>
    obtain rfl := Option.some.inj h
    obtain ⟨code, hcode, hloose⟩ := exists_code_of_newline? hafter
    refine ⟨chars.takeWhile (fun c => c == ' ' || c == '\t') ++ code ++
      after.takeWhile (fun c => c == ' ' || c == '\t' || c == '\n' || c == '\r'), ?_, ?_⟩
    · rw [List.append_assoc, List.append_assoc, List.takeWhile_append_dropWhile, ← hcode,
        List.takeWhile_append_dropWhile]
    · intro d hd
      rcases List.mem_append.mp hd with hd | hd
      · rcases List.mem_append.mp hd with hd | hd
        · have hblank := List.mem_takeWhile_imp hd
          simp only [Bool.or_eq_true, beq_iff_eq] at hblank
          rcases hblank with rfl | rfl <;> decide
        · exact hloose d hd
      · have hblank := List.mem_takeWhile_imp hd
        simp only [Bool.or_eq_true, beq_iff_eq] at hblank
        rcases hblank with ((rfl | rfl) | rfl) | rfl <;> decide
  · cases h

section

variable {fuel : Nat} {seen text : List Char}

theorem spells_of_oneLine? (h : oneLine? '"' true fuel seen chars = some (text, rest)) :
    ∃ written read, chars = written ++ '"' :: rest ∧ text = seen.reverse ++ read ∧
      Spells (fun c => isRaw c) written read := by
  induction fuel generalizing seen chars with
  | zero => cases h
  | succ fuel ih =>
    cases chars with
    | nil => cases h
    | cons c more =>
      rw [oneLine?] at h
      split at h
      · next hc =>
        obtain ⟨rfl, rfl⟩ := Prod.mk.inj (Option.some.inj h)
        exact ⟨[], [], by rw [hc]; rfl, (List.append_nil _).symm, .nil⟩
      · next hquote =>
        split at h
        · next hc =>
          obtain ⟨⟨d, after⟩, hescape, hafter⟩ := Option.bind_eq_some_iff.mp h
          obtain ⟨code, rfl, hne, hcode⟩ := exists_code_of_escape? hescape
          obtain ⟨written, read, rfl, rfl, hspells⟩ := ih hafter
          exact ⟨'\\' :: code ++ written, d :: read, by simp [hc.1], by simp, hspells.escape hne hcode d⟩
        · next hbackslash =>
          split at h
          · cases h
          · next hc =>
            obtain ⟨written, read, rfl, rfl, hspells⟩ := ih h
            refine ⟨c :: written, c :: read, rfl, by simp, .raw ?_ hspells⟩
            exact isRaw_iff.mpr ⟨hquote, fun hc => hbackslash ⟨hc, rfl⟩, Bool.eq_false_iff.mpr hc⟩

theorem eq_replicate_append_drop {c : Char} {n : Nat}
    (h : n ≤ (chars.takeWhile (· == c)).length) : chars = List.replicate n c ++ chars.drop n := by
  have hfront : chars.take n <+: chars.takeWhile (· == c) :=
    List.prefix_of_prefix_length_le (List.take_prefix n chars) (List.takeWhile_prefix _)
      (Nat.le_trans (List.length_take_le n chars) h)
  have hlength : (chars.take n).length = n :=
    List.length_take_of_le (Nat.le_trans h (List.takeWhile_prefix _).length_le)
  have htake : chars.take n = List.replicate n c :=
    List.eq_replicate_iff.mpr ⟨hlength, fun _ hd => by
      simpa using List.mem_takeWhile_imp (hfront.subset hd)⟩
  rw [← htake, List.take_append_drop]

theorem spells_of_manyLines? (h : manyLines? '"' true fuel seen chars = some (text, rest)) :
    ∃ written read, chars = written ++ '"' :: rest ∧ text = seen.reverse ++ read ∧
      Spells (fun _ => True) written read := by
  induction fuel generalizing seen chars with
  | zero => cases h
  | succ fuel ih =>
    cases chars with
    | nil => cases h
    | cons c more =>
      rw [manyLines?] at h
      split at h
      · next hc =>
        dsimp only at h
        split at h
        · next hrun =>
          obtain ⟨rfl, rfl⟩ := Prod.mk.inj (Option.some.inj h)
          obtain ⟨n, hn⟩ := Nat.exists_eq_add_of_le' hrun
          have hmarks := eq_replicate_append_drop (Nat.min_le_right 5
            ((c :: more).takeWhile (· == '"')).length)
          rw [hn] at hmarks ⊢
          have hclosing : Spells (fun _ => True) (['"', '"'] ++ []) [] :=
            .skip (List.all_eq_true.mp rfl) (List.cons_ne_nil _ _) .nil
          have hspells := hclosing.replicate (c := '"') trivial n
          refine ⟨_, _, ?_, by simp, hspells⟩
          rw [List.append_assoc]
          exact hmarks.trans (by rw [← List.replicate_append_replicate, List.append_assoc]; rfl)
        · obtain ⟨written, read, rfl, rfl, hspells⟩ := ih h
          exact ⟨c :: written, c :: read, rfl, by simp, .raw trivial hspells⟩
      · split at h
        · next hc =>
          split at h
          · next after hjoin =>
            obtain ⟨code, rfl, hcode⟩ := exists_code_of_joinLine? hjoin
            obtain ⟨written, read, rfl, rfl, hspells⟩ := ih h
            refine ⟨('\\' :: code) ++ written, read, by simp [hc.1], rfl, ?_⟩
            exact .skip (List.forall_mem_cons.mpr ⟨by decide, hcode⟩) (List.cons_ne_nil _ _) hspells
          · obtain ⟨⟨d, after⟩, hescape, hafter⟩ := Option.bind_eq_some_iff.mp h
            obtain ⟨code, rfl, hne, hcode⟩ := exists_code_of_escape? hescape
            obtain ⟨written, read, rfl, rfl, hspells⟩ := ih hafter
            exact ⟨'\\' :: code ++ written, d :: read, by simp [hc.1], by simp,
              hspells.escape hne hcode d⟩
        · split at h
          · next after hline =>
            obtain ⟨written, read, rfl, rfl, hspells⟩ := ih h
            rcases newline?_eq_some hline with heq | heq
            · rw [heq]
              exact ⟨'\n' :: written, '\n' :: read, rfl, by simp, .raw trivial hspells⟩
            · rw [heq]
              exact ⟨['\r', '\n'] ++ written, ['\n'] ++ read, rfl, by simp,
                .code (List.all_eq_true.mp rfl) (Nat.lt_succ_self 1) hspells⟩
          · split at h
            · cases h
            · obtain ⟨written, read, rfl, rfl, hspells⟩ := ih h
              exact ⟨c :: written, c :: read, rfl, by simp, .raw trivial hspells⟩

end

end

/-- A quote that closes a string closes it no later than at the end of a text, if the string has no more
than the text of a character that comes before any further quote. -/
theorem length_le_of_count_le {text between after written rest : List Char} {m : Char}
    (hchars : text ++ '"' :: (between ++ m :: after) = written ++ '"' :: rest)
    (hbetween : '"' ∉ between) (hm : m ≠ '"') (hcount : written.count m ≤ text.count m) :
    written.length ≤ text.length := by
  rcases List.append_eq_append_iff.mp hchars with ⟨more, rfl, hmore⟩ | ⟨more, rfl, -⟩
  · cases more with
    | nil => simp
    | cons c more =>
      obtain ⟨rfl, htail⟩ := List.cons.inj hmore
      rcases List.append_eq_append_iff.mp htail with ⟨last, rfl, hlast⟩ | ⟨last, rfl, hlast⟩
      · cases last with
        | nil => exact absurd (List.cons.inj hlast).1 hm
        | cons d last =>
          obtain ⟨rfl, -⟩ := List.cons.inj hlast
          simp only [List.count_append, List.count_cons, beq_self_eq_true, if_true] at hcount
          omega
      · cases last with
        | nil => exact absurd (List.cons.inj hlast).1.symm hm
        | cons d last =>
          obtain ⟨rfl, -⟩ := List.cons.inj hlast
          exact absurd (List.mem_append_right _ List.mem_cons_self) hbetween
  · simp

theorem raw_of_string? {text between after rest : List Char} {m : Char} (hbetween : '"' ∉ between)
    (hm : isLoose m = false)
    (h : string? ('"' :: (text ++ '"' :: (between ++ m :: after))) = some (String.ofList text, rest)) :
    ∀ c ∈ text, isRaw c := by
  have hquote : m ≠ '"' := by
    rintro rfl
    cases hm
  -- On one line as many characters were written as the text has.
  have hone : ∀ {fuel}, (oneLine? '"' true fuel [] (text ++ '"' :: (between ++ m :: after))).map
      (fun read => (String.ofList read.1, read.2)) = some (String.ofList text, rest) →
      ∀ c ∈ text, isRaw c := by
    intro fuel hread
    obtain ⟨⟨read, rest⟩, hline, hresult⟩ := Option.map_eq_some_iff.mp hread
    obtain rfl : text = read := (String.ofList_injective (Prod.mk.inj hresult).1).symm
    obtain ⟨written, read, hwritten, hread, hspells⟩ := spells_of_oneLine? hline
    obtain rfl : text = read := hread
    have hle := length_le_of_count_le hwritten hbetween hquote (hspells.count_le hm)
    exact (hspells.eq_of_length_le hle).2
  generalize hchars : text ++ '"' :: (between ++ m :: after) = chars at h hone
  unfold string? at h
  split at h
  · next a b c more heq =>
    obtain ⟨rfl, rfl⟩ := List.cons.inj heq
    split at h
    · next hsame =>
      -- Between three quotes more were written.
      obtain ⟨⟨read, last⟩, hlines, hresult⟩ := Option.map_eq_some_iff.mp h
      obtain rfl : text = read := (String.ofList_injective (Prod.mk.inj hresult).1).symm
      obtain ⟨written, read, hwritten, hread, hspells⟩ := spells_of_manyLines? hlines
      obtain rfl : text = read := hread
      obtain ⟨start, hstart, hloose⟩ : ∃ start, more = start ++ (newline? more).getD more ∧
          ∀ d ∈ start, isLoose d := by
        cases hline : newline? more with
        | none => exact ⟨[], rfl, fun _ h => (List.not_mem_nil h).elim⟩
        | some next => exact exists_code_of_newline? hline
      obtain ⟨rfl, rfl⟩ := hsame
      have hfirst : ∀ d ∈ '"' :: '"' :: start, isLoose d :=
        List.forall_mem_cons.mpr ⟨by decide, List.forall_mem_cons.mpr ⟨by decide, hloose⟩⟩
      have hall := hspells.skip hfirst (List.cons_ne_nil _ _)
      have hsplit : text ++ '"' :: (between ++ m :: after) =
          ('"' :: '"' :: start ++ written) ++ '"' :: last := by
        rw [hchars, hstart, hwritten]
        simp
      have hle := length_le_of_count_le hsplit hbetween hquote (hall.count_le hm)
      have hshort := hspells.length_le
      simp only [List.cons_append, List.length_cons, List.length_append] at hle
      omega
    · exact hone h
  · next a more _ heq =>
    obtain ⟨rfl, rfl⟩ := List.cons.inj heq
    exact hone h
  · next heq => cases heq

end SessionGate.Toml
