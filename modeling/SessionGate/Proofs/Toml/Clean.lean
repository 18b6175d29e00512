import Mathlib.Data.List.TakeWhile
import SessionGate.Toml.Reader

/-!
No document that reads has a control character in it, but for tabs and line ends. Of each reader: where
it stops before a clean text, it started before one. Main statement: `clean_of_read?`.
-/

namespace SessionGate.Toml

def isBarred (c : Char) : Bool := isForbidden c && c != '\n' && c != '\r'

def Clean (chars : List Char) : Prop := ∀ c ∈ chars, isBarred c = false

theorem clean_nil : Clean [] := fun _ h => (List.not_mem_nil h).elim

theorem clean_cons {c : Char} {rest : List Char} :
    Clean (c :: rest) ↔ isBarred c = false ∧ Clean rest := List.forall_mem_cons

theorem clean_append {front back : List Char} :
    Clean (front ++ back) ↔ Clean front ∧ Clean back := List.forall_mem_append

theorem isBarred_of_not_forbidden {c : Char} (h : isForbidden c = false) : isBarred c = false := by
  rw [isBarred, h]
  rfl

/-- The characters that are barred are among the first 128. -/
theorem isBarred_of (p : Char → Bool)
    (hp : ∀ n < 128, isBarred (Char.ofNat n) → p (Char.ofNat n) = false) {c : Char} (h : p c) :
    isBarred c = false := by
  by_contra hbarred
  have hlt : c.toNat < 128 := by
    simp only [isBarred, isForbidden, Bool.not_eq_false, Bool.and_eq_true, Bool.or_eq_true,
      decide_eq_true_eq, beq_iff_eq] at hbarred
    omega
  have hfalse := hp c.toNat hlt
  rw [Char.ofNat_toNat] at hfalse
  cases h.symm.trans (hfalse (by simpa using hbarred))

section

variable {p : Char → Bool} {chars rest : List Char}

theorem clean_takeWhile (hp : ∀ c, p c → isBarred c = false) (chars : List Char) :
    Clean (chars.takeWhile p) := fun c hc => hp c (List.mem_takeWhile_imp hc)

theorem clean_of_dropWhile (hp : ∀ c, p c → isBarred c = false)
    (h : Clean (chars.dropWhile p)) : Clean chars := by
  rw [← List.takeWhile_append_dropWhile (p := p) (l := chars)]
  exact clean_append.mpr ⟨clean_takeWhile hp chars, h⟩

theorem clean_of_drop (hp : ∀ c, p c → isBarred c = false) {n : Nat}
    (hn : n ≤ (chars.takeWhile p).length) (h : Clean (chars.drop n)) : Clean chars := by
  rw [← List.take_append_drop n chars]
  have hfront : chars.take n <+: chars.takeWhile p :=
    List.prefix_of_prefix_length_le (List.take_prefix n chars) (List.takeWhile_prefix p)
      (Nat.le_trans (List.length_take_le n chars) hn)
  exact clean_append.mpr ⟨fun c hc => clean_takeWhile hp chars c (hfront.subset hc), h⟩

theorem clean_of_skipBlanks (h : Clean (skipBlanks chars)) : Clean chars := by
  refine clean_of_dropWhile (fun c hc => ?_) h
  rcases Bool.or_eq_true_iff.mp hc with hc | hc <;> rw [eq_of_beq hc] <;> decide

theorem clean_of_newline? (h : newline? chars = some rest) (hrest : Clean rest) : Clean chars := by
  unfold newline? at h
  split at h
  · cases h
    exact clean_cons.mpr ⟨by decide, hrest⟩
  · cases h
    exact clean_cons.mpr ⟨by decide, clean_cons.mpr ⟨by decide, hrest⟩⟩
  · cases h

theorem clean_of_afterComment? (h : afterComment? chars = some rest) (hrest : Clean rest) :
    Clean chars := by
  simp only [afterComment?, Option.ite_none_right_eq_some, Option.some.injEq] at h
  obtain ⟨-, rfl⟩ := h
  exact clean_of_drop (fun c hc => isBarred_of_not_forbidden (by simpa using hc)) (Nat.le_refl _) hrest

theorem clean_of_skipSpace? {fuel : Nat} (h : skipSpace? fuel chars = some rest)
    (hrest : Clean rest) : Clean chars := by
  induction fuel generalizing chars with
  | zero => cases h
  | succ fuel ih =>
    rw [skipSpace?] at h
    refine clean_of_skipBlanks ?_
    split at h
    · next more heq =>
      obtain ⟨after, hafter, h⟩ := Option.bind_eq_some_iff.mp h
      rw [heq]
      exact clean_cons.mpr ⟨by decide, clean_of_afterComment? hafter (ih h)⟩
    · split at h
      · next after hafter => exact clean_of_newline? hafter (ih h)
      · cases h
        exact hrest

theorem clean_of_afterStatement? (h : afterStatement? chars = some rest) (hrest : Clean rest) :
    Clean chars := by
  have hend : ∀ {after}, (if after = [] then some [] else newline? after) = some rest →
      Clean after := by
    intro after h
    split at h
    · next heq => exact heq ▸ clean_nil
    · exact clean_of_newline? h hrest
  rw [afterStatement?] at h
  refine clean_of_skipBlanks ?_
  split at h
  · next heq =>
    obtain ⟨after, hafter, h⟩ := Option.bind_eq_some_iff.mp h
    rw [heq]
    exact clean_cons.mpr ⟨by decide, clean_of_afterComment? hafter (hend h)⟩
  · exact hend h

end

theorem isBarred_of_digitIn {base n : Nat} {c : Char} (h : digitIn base c = some n) :
    isBarred c = false := by
  rw [digitIn] at h
  obtain ⟨hv, -⟩ := Option.filter_eq_some_iff.mp h
  split at hv
  · next hc => exact isBarred_of (fun c => '0' ≤ c ∧ c ≤ '9') (by decide) (decide_eq_true hc)
  · split at hv
    · next hc => exact isBarred_of (fun c => 'a' ≤ c ∧ c ≤ 'f') (by decide) (decide_eq_true hc)
    · split at hv
      · next hc => exact isBarred_of (fun c => 'A' ≤ c ∧ c ≤ 'F') (by decide) (decide_eq_true hc)
      · cases hv

theorem clean_of_hex? {digits : List Char} {n : Nat} (h : hex? digits = some n) : Clean digits := by
  unfold hex? at h
  generalize 0 = start at h
  induction digits generalizing start with
  | nil => exact clean_nil
  | cons c digits ih =>
    rw [List.foldlM_cons] at h
    obtain ⟨next, hnext, h⟩ := Option.bind_eq_some_iff.mp h
    obtain ⟨d, hd, -⟩ := Option.map_eq_some_iff.mp hnext
    exact clean_cons.mpr ⟨isBarred_of_digitIn hd, ih _ h⟩

theorem isBarred_of_shortEscape? {c d : Char} (h : shortEscape? c = some d) : isBarred c = false := by
  unfold shortEscape? at h
  split at h <;> first | decide | cases h

theorem clean_of_escape? {chars rest : List Char} {c : Char} (h : escape? chars = some (c, rest))
    (hrest : Clean rest) : Clean chars := by
  cases chars with
  | nil => cases h
  | cons d more =>
    rw [escape?] at h
    dsimp only at h
    generalize hwidth : (if d = 'x' then 2 else if d = 'u' then 4 else if d = 'U' then 8 else 0) =
      width at h
    split at h
    · obtain ⟨e, he, heq⟩ := Option.map_eq_some_iff.mp h
      obtain ⟨-, rfl⟩ := Prod.mk.inj heq
      exact clean_cons.mpr ⟨isBarred_of_shortEscape? he, hrest⟩
    · next hne =>
      have hd : isBarred d = false := by
        by_contra hbarred
        refine hne ?_
        rw [← hwidth, if_neg, if_neg, if_neg] <;>
        · rintro rfl
          exact hbarred (by decide)
      split at h
      · cases h
      · obtain ⟨e, he, heq⟩ := Option.map_eq_some_iff.mp h
        obtain ⟨-, rfl⟩ := Prod.mk.inj heq
        obtain ⟨n, hn, -⟩ := Option.bind_eq_some_iff.mp he
        rw [← List.take_append_drop width more]
        exact clean_cons.mpr ⟨hd, clean_append.mpr ⟨clean_of_hex? hn, hrest⟩⟩

section

variable {mark : Char} {escapes : Bool} {fuel : Nat} {seen chars rest : List Char}

theorem clean_of_joinLine? (h : joinLine? chars = some rest) (hrest : Clean rest) : Clean chars := by
  rw [joinLine?] at h
  split at h
  · next after hafter =>
    cases h
    refine clean_of_skipBlanks (clean_of_newline? hafter (clean_of_dropWhile (fun c hc => ?_) hrest))
    simp only [Bool.or_eq_true, beq_iff_eq] at hc
    rcases hc with ((rfl | rfl) | rfl) | rfl <;> decide
  · cases h

theorem clean_of_oneLine? {text : List Char} (hmark : isBarred mark = false)
    (h : oneLine? mark escapes fuel seen chars = some (text, rest)) (hrest : Clean rest) :
    Clean chars := by
  induction fuel generalizing seen chars with
  | zero => cases h
  | succ fuel ih =>
    cases chars with
    | nil => cases h
    | cons c more =>
      rw [oneLine?] at h
      split at h
      · next hc =>
        cases h
        exact clean_cons.mpr ⟨hc ▸ hmark, hrest⟩
      · split at h
        · next hc =>
          obtain ⟨⟨d, after⟩, hescape, h⟩ := Option.bind_eq_some_iff.mp h
          exact clean_cons.mpr ⟨hc.1 ▸ by decide, clean_of_escape? hescape (ih h)⟩
        · split at h
          · cases h
          · next hc =>
            exact clean_cons.mpr ⟨isBarred_of_not_forbidden (Bool.eq_false_iff.mpr hc), ih h⟩

theorem clean_of_manyLines? {text : List Char} (hmark : isBarred mark = false)
    (h : manyLines? mark escapes fuel seen chars = some (text, rest)) (hrest : Clean rest) :
    Clean chars := by
  induction fuel generalizing seen chars with
  | zero => cases h
  | succ fuel ih =>
    cases chars with
    | nil => cases h
    | cons c more =>
      rw [manyLines?] at h
      split at h
      · next hc =>
        dsimp only at h
        split at h
        · cases h
          refine clean_of_drop (p := (· == mark)) (fun d hd => ?_) (Nat.min_le_right _ _) hrest
          rw [eq_of_beq hd]
          exact hmark
        · exact clean_cons.mpr ⟨hc ▸ hmark, ih h⟩
      · split at h
        · next hc =>
          have hbackslash : isBarred c = false := hc.1 ▸ by decide
          split at h
          · next hjoin =>
            exact clean_cons.mpr ⟨hbackslash, clean_of_joinLine? hjoin (ih h)⟩
          · obtain ⟨⟨d, after⟩, hescape, h⟩ := Option.bind_eq_some_iff.mp h
            exact clean_cons.mpr ⟨hbackslash, clean_of_escape? hescape (ih h)⟩
        · split at h
          · next hline => exact clean_of_newline? hline (ih h)
          · split at h
            · cases h
            · next hc =>
              exact clean_cons.mpr ⟨isBarred_of_not_forbidden (Bool.eq_false_iff.mpr hc), ih h⟩

theorem exists_of_map {α β : Type} {found : Option (α × List Char)}
    {g : α × List Char → β × List Char} {b : β} (h : found.map g = some (b, rest))
    (hg : ∀ x, (g x).2 = x.2) : ∃ a, found = some (a, rest) := by
  obtain ⟨⟨a, after⟩, hfound, heq⟩ := Option.map_eq_some_iff.mp h
  have hafter : after = rest := (hg (a, after)).symm.trans (congrArg Prod.snd heq)
  exact ⟨a, hafter ▸ hfound⟩

theorem clean_of_string? {text : String} (hmark : ∀ c ∈ chars.head?, isBarred c = false)
    (h : string? chars = some (text, rest)) (hrest : Clean rest) : Clean chars := by
  unfold string? at h
  split at h
  · next a b c more =>
    have ha := hmark a rfl
    split at h
    · next hsame =>
      obtain ⟨text, hlines⟩ := exists_of_map h fun _ => rfl
      have hmore := clean_of_manyLines? ha hlines hrest
      obtain ⟨rfl, rfl⟩ := hsame
      refine clean_cons.mpr ⟨ha, clean_cons.mpr ⟨ha, clean_cons.mpr ⟨ha, ?_⟩⟩⟩
      cases hline : newline? more with
      | none => simpa [hline] using hmore
      | some next => exact clean_of_newline? hline (by simpa [hline] using hmore)
    · obtain ⟨text, hline⟩ := exists_of_map h fun _ => rfl
      exact clean_cons.mpr ⟨ha, clean_of_oneLine? ha hline hrest⟩
  · next a more _ =>
    have ha := hmark a rfl
    obtain ⟨text, hline⟩ := exists_of_map h fun _ => rfl
    exact clean_cons.mpr ⟨ha, clean_of_oneLine? ha hline hrest⟩
  · cases h

theorem clean_of_keyPart? {key : String} (h : keyPart? chars = some (key, rest))
    (hrest : Clean rest) : Clean chars := by
  unfold keyPart? at h
  split at h
  · obtain ⟨text, hline⟩ := exists_of_map h fun _ => rfl
    exact clean_cons.mpr ⟨by decide, clean_of_oneLine? (by decide) hline hrest⟩
  · obtain ⟨text, hline⟩ := exists_of_map h fun _ => rfl
    exact clean_cons.mpr ⟨by decide, clean_of_oneLine? (by decide) hline hrest⟩
  · dsimp only at h
    split at h
    · cases h
    · obtain ⟨-, rfl⟩ := Prod.mk.inj (Option.some.inj h)
      exact clean_of_drop (fun c => isBarred_of isBareChar (by decide)) (Nat.le_refl _) hrest

theorem clean_of_key? {path : List String} (h : key? fuel chars = some (path, rest))
    (hrest : Clean rest) : Clean chars := by
  induction fuel generalizing chars path with
  | zero => cases h
  | succ fuel ih =>
    rw [key?] at h
    obtain ⟨⟨part, after⟩, hpart, h⟩ := Option.bind_eq_some_iff.mp h
    refine clean_of_skipBlanks (clean_of_keyPart? hpart (clean_of_skipBlanks ?_))
    dsimp only at h
    split at h
    · next heq =>
      obtain ⟨⟨parts, end_⟩, hkey, heq'⟩ := Option.bind_eq_some_iff.mp h
      obtain ⟨-, rfl⟩ := Prod.mk.inj (Option.some.inj heq')
      rw [heq]
      exact clean_cons.mpr ⟨by decide, ih hkey⟩
    · obtain ⟨-, rfl⟩ := Prod.mk.inj (Option.some.inj h)
      exact hrest

end

theorem clean_of_word {chars : List Char} (h : Clean (word chars).2) : Clean chars := by
  have hword : ∀ c, isWordChar c → isBarred c = false := fun c => isBarred_of isWordChar (by decide)
  refine clean_of_drop hword (Nat.le_refl _) ?_
  rw [word] at h
  dsimp only at h
  split at h
  · next c more heq =>
    split at h
    · rw [heq]
      exact clean_cons.mpr ⟨by decide, clean_of_drop hword (Nat.le_refl _) h⟩
    · exact h
  · exact h

/-- For the readers of values, which call each other. -/
structure CleanBelow (fuel : Nat) : Prop where
  value : ∀ {chars rest v}, value? fuel chars = some (v, rest) → Clean rest → Clean chars
  items : ∀ {chars rest vs}, items? fuel chars = some (vs, rest) → Clean rest → Clean chars
  members : ∀ {chars rest entries entries'}, members? fuel entries chars = some (entries', rest) →
    Clean rest → Clean chars

section

variable {fuel : Nat} {chars rest : List Char}

theorem CleanBelow.value_succ (ih : CleanBelow fuel) {v : Toml}
    (h : value? (fuel + 1) chars = some (v, rest)) (hrest : Clean rest) : Clean chars := by
  unfold value? at h
  split at h
  · obtain ⟨text, hstring⟩ := exists_of_map h fun _ => rfl
    exact clean_of_string? (by rintro c ⟨⟩; decide) hstring hrest
  · obtain ⟨text, hstring⟩ := exists_of_map h fun _ => rfl
    exact clean_of_string? (by rintro c ⟨⟩; decide) hstring hrest
  · obtain ⟨items, hitems⟩ := exists_of_map h fun _ => rfl
    exact clean_cons.mpr ⟨by decide, ih.items hitems hrest⟩
  · obtain ⟨entries, hmembers⟩ := exists_of_map h fun _ => rfl
    exact clean_cons.mpr ⟨by decide, ih.members hmembers hrest⟩
  · obtain ⟨v, -, heq⟩ := Option.map_eq_some_iff.mp h
    obtain ⟨-, rfl⟩ := Prod.mk.inj heq
    exact clean_of_word hrest

theorem CleanBelow.items_succ (ih : CleanBelow fuel) {vs : List Toml}
    (h : items? (fuel + 1) chars = some (vs, rest)) (hrest : Clean rest) : Clean chars := by
  rw [items?] at h
  obtain ⟨start, hstart, h⟩ := Option.bind_eq_some_iff.mp h
  refine clean_of_skipSpace? hstart ?_
  split at h
  · cases h
    exact clean_cons.mpr ⟨by decide, hrest⟩
  · obtain ⟨⟨v, after⟩, hv, h⟩ := Option.bind_eq_some_iff.mp h
    obtain ⟨next, hnext, h⟩ := Option.bind_eq_some_iff.mp h
    refine ih.value hv (clean_of_skipSpace? hnext ?_)
    split at h
    · obtain ⟨⟨more, last⟩, hmore, heq⟩ := Option.bind_eq_some_iff.mp h
      obtain ⟨-, rfl⟩ := Prod.mk.inj (Option.some.inj heq)
      exact clean_cons.mpr ⟨by decide, ih.items hmore hrest⟩
    · cases h
      exact clean_cons.mpr ⟨by decide, hrest⟩
    · cases h

theorem CleanBelow.members_succ (ih : CleanBelow fuel) {entries entries' : Entries}
    (h : members? (fuel + 1) entries chars = some (entries', rest)) (hrest : Clean rest) :
    Clean chars := by
  rw [members?] at h
  obtain ⟨start, hstart, h⟩ := Option.bind_eq_some_iff.mp h
  refine clean_of_skipSpace? hstart ?_
  split at h
  · cases h
    exact clean_cons.mpr ⟨by decide, hrest⟩
  · obtain ⟨⟨path, after⟩, hkey, h⟩ := Option.bind_eq_some_iff.mp h
    refine clean_of_key? hkey (clean_of_skipBlanks ?_)
    dsimp only at h
    split at h
    · next heq =>
      obtain ⟨⟨v, last⟩, hv, h⟩ := Option.bind_eq_some_iff.mp h
      obtain ⟨changed, -, h⟩ := Option.bind_eq_some_iff.mp h
      obtain ⟨next, hnext, h⟩ := Option.bind_eq_some_iff.mp h
      rw [heq]
      refine clean_cons.mpr ⟨by decide,
        clean_of_skipBlanks (ih.value hv (clean_of_skipSpace? hnext ?_))⟩
      split at h
      · exact clean_cons.mpr ⟨by decide, ih.members h hrest⟩
      · cases h
        exact clean_cons.mpr ⟨by decide, hrest⟩
      · cases h
    · cases h

end

theorem cleanBelow (fuel : Nat) : CleanBelow fuel := by
  induction fuel with
  | zero => exact ⟨fun h => (by cases h), fun h => (by cases h), fun h => (by cases h)⟩
  | succ fuel ih => exact ⟨ih.value_succ, ih.items_succ, ih.members_succ⟩

theorem clean_of_statement? {d d' : Document} {chars rest : List Char}
    (h : statement? d chars = some (d', rest)) (hrest : Clean rest) : Clean chars := by
  unfold statement? at h
  dsimp only at h
  split at h
  · obtain ⟨⟨path, after⟩, hkey, h⟩ := Option.bind_eq_some_iff.mp h
    refine clean_cons.mpr ⟨by decide, clean_cons.mpr ⟨by decide, clean_of_key? hkey ?_⟩⟩
    dsimp only at h
    split at h
    · obtain ⟨last, hlast, h⟩ := Option.bind_eq_some_iff.mp h
      obtain ⟨root, -, h⟩ := Option.bind_eq_some_iff.mp h
      cases h
      exact clean_cons.mpr ⟨by decide, clean_cons.mpr ⟨by decide, clean_of_afterStatement? hlast hrest⟩⟩
    · cases h
  · obtain ⟨⟨path, after⟩, hkey, h⟩ := Option.bind_eq_some_iff.mp h
    refine clean_cons.mpr ⟨by decide, clean_of_key? hkey ?_⟩
    dsimp only at h
    split at h
    · obtain ⟨last, hlast, h⟩ := Option.bind_eq_some_iff.mp h
      obtain ⟨root, -, h⟩ := Option.bind_eq_some_iff.mp h
      cases h
      exact clean_cons.mpr ⟨by decide, clean_of_afterStatement? hlast hrest⟩
    · cases h
  · obtain ⟨⟨path, after⟩, hkey, h⟩ := Option.bind_eq_some_iff.mp h
    refine clean_of_key? hkey ?_
    dsimp only at h
    split at h
    · obtain ⟨⟨v, ending⟩, hv, h⟩ := Option.bind_eq_some_iff.mp h
      obtain ⟨last, hlast, h⟩ := Option.bind_eq_some_iff.mp h
      obtain ⟨root, -, h⟩ := Option.bind_eq_some_iff.mp h
      cases h
      exact clean_cons.mpr ⟨by decide, clean_of_skipBlanks
        ((cleanBelow _).value hv (clean_of_afterStatement? hlast hrest))⟩
    · cases h

theorem clean_of_statements? {fuel : Nat} {d d' : Document} {chars : List Char}
    (h : statements? fuel d chars = some d') : Clean chars := by
  induction fuel generalizing d chars with
  | zero => cases h
  | succ fuel ih =>
    rw [statements?] at h
    obtain ⟨start, hstart, h⟩ := Option.bind_eq_some_iff.mp h
    refine clean_of_skipSpace? hstart ?_
    split at h
    · exact clean_nil
    · obtain ⟨⟨next, rest⟩, hstatement, h⟩ := Option.bind_eq_some_iff.mp h
      exact clean_of_statement? hstatement (ih h)

theorem clean_of_read? {text : String} {entries : List (String × Toml)}
    (h : read? text = some entries) : Clean text.toList := by
  unfold read? at h
  obtain ⟨d, hd, -⟩ := Option.map_eq_some_iff.mp h
  split at hd
  · next heq =>
    rw [heq]
    exact clean_cons.mpr ⟨by decide, clean_of_statements? hd⟩
  · exact clean_of_statements? hd

end SessionGate.Toml
