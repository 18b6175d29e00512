import Mathlib.Data.List.TakeWhile
import SessionGate.Encoding.Pem
import SessionGate.Proofs.Encoding.Base64

/-!
An armoured text reads back as the label and the bytes it was written from, line by line of the body.
Main statement: `read?_write`.
-/

namespace SessionGate.Pem

theorem after?_append (start text : List Char) : after? start (start ++ text) = some text := by
  induction start with
  | nil => rfl
  | cons c start ih => rw [List.cons_append, after?, if_pos rfl, ih]

theorem before?_append (text ending : List Char) : before? ending (text ++ ending) = some text := by
  rw [before?, List.reverse_append, after?_append, Option.map_some, List.reverse_reverse]

theorem beforeLineEnd?_append {text : List Char} (h : text.getLast? ≠ some '\r') :
    beforeLineEnd? (text ++ ['\n']) = some text := by
  have hback : text.reverse.head? ≠ some '\r' := by
    rwa [List.head?_reverse]
  rw [beforeLineEnd?, List.reverse_append, List.reverse_singleton, List.singleton_append]
  split
  · next rest hrest =>
    obtain ⟨-, hrest⟩ := List.cons.inj hrest
    exact (hback (by rw [hrest]; rfl)).elim
  · next rest hrest =>
    obtain ⟨-, rfl⟩ := List.cons.inj hrest
    rw [List.reverse_reverse]
  · next hrest => cases (List.cons.inj hrest).1
  · next _ hother _ => exact (hother _ rfl).elim

/-- No dash is in the label, so that it ends where the dashes after it begin. -/
theorem splitLabel?_append {label : List Char} (hlabel : '-' ∉ label) (before rest : List Char) :
    splitLabel? before (label ++ dashes ++ rest) = some (before.reverse ++ label, rest) := by
  induction label generalizing before with
  | nil =>
    have hdashes : dashes ++ rest = '-' :: ("----".toList ++ rest) := rfl
    have hafter := after?_append dashes rest
    rw [hdashes] at hafter
    rw [List.nil_append, hdashes, splitLabel?, hafter, List.append_nil]
  | cons c label ih =>
    obtain ⟨hc, hlabel⟩ := not_or.mp (mt List.mem_cons.mpr hlabel)
    have hnone : after? dashes (c :: (label ++ dashes ++ rest)) = none := if_neg hc
    rw [List.cons_append, List.cons_append, splitLabel?, hnone]
    dsimp only
    rw [ih hlabel, List.reverse_cons, List.append_assoc, List.singleton_append]

theorem isBase64Char_of_mem {bytes : List UInt8} {c : Char}
    (h : c ∈ (Base64.encodePadded Base64.standard bytes).toList) : isBase64Char c = true := by
  rcases Base64.mem_encodePadded h with hchar | rfl
  · have hall : Base64.standard.chars.all isBase64Char := by
      decide +kernel
    exact List.all_eq_true.mp hall c hchar
  · rfl

theorem not_isBase64Char_lineEnd : isBase64Char '\n' = false ∧ isBase64Char '\r' = false := by
  decide +kernel

section

variable {chars : List Char} (hchars : ∀ c ∈ chars, isBase64Char c = true) {fuel : Nat}

include hchars

theorem joinLines?_last (hne : chars ≠ []) (hshort : chars.length ≤ 64) :
    joinLines? (fuel + 1) chars = some chars := by
  have hline : chars.takeWhile isBase64Char = chars := List.takeWhile_eq_self_iff.mpr hchars
  rw [joinLines?]
  simp only [hline, List.drop_length]
  rw [if_neg (by simpa [hne] using hshort)]

theorem joinLines?_line (hfull : chars.length = 64) (more : List Char) :
    joinLines? (fuel + 1) (chars ++ '\n' :: more) = (joinLines? fuel more).map (chars ++ ·) := by
  have hline : (chars ++ '\n' :: more).takeWhile isBase64Char = chars := by
    rw [List.takeWhile_append_of_pos hchars, List.takeWhile_cons, not_isBase64Char_lineEnd.1]
    exact List.append_nil _
  have hne : chars ≠ [] := by
    rintro rfl
    cases hfull
  rw [joinLines?]
  simp only [hline, List.drop_left]
  rw [if_neg (by simp [hne, hfull]), if_neg (by simp [hfull])]
  rw [afterLineEnd?, Option.bind_eq_bind, Option.bind_some]
  cases joinLines? fuel more <;> rfl

end

/-- The body without its last line end, and what is read of it. -/
theorem exists_splitLines {chars : List Char} (hchars : ∀ c ∈ chars, isBase64Char c = true)
    (hne : chars ≠ []) {fuel : Nat} (hfuel : chars.length < fuel) : ∃ lines,
      splitLines fuel chars = lines ++ ['\n'] ∧ lines.getLast? ≠ some '\r' ∧
      chars.length ≤ lines.length ∧
      ∀ fuel', lines.length ≤ fuel' → joinLines? (fuel' + 1) lines = some chars := by
  induction fuel generalizing chars with
  | zero => exact absurd hfuel (Nat.not_lt_zero _)
  | succ fuel ih =>
    obtain ⟨c, rest, hcons⟩ := List.exists_cons_of_ne_nil hne
    have hsplit : splitLines (fuel + 1) chars =
        chars.take 64 ++ '\n' :: splitLines fuel (chars.drop 64) := by
      rw [hcons]
      rfl
    have hlast : ∀ line : List Char, (∀ c ∈ line, isBase64Char c = true) → line.getLast? ≠ some '\r' := by
      intro line hline hlast
      have hcr := hline _ (List.mem_of_getLast? hlast)
      rw [not_isBase64Char_lineEnd.2] at hcr
      cases hcr
    by_cases hshort : chars.length ≤ 64
    · refine ⟨chars, ?_, hlast chars hchars, Nat.le_refl _, fun fuel' _ => joinLines?_last hchars hne hshort⟩
      rw [hsplit, List.take_of_length_le hshort, List.drop_of_length_le hshort]
      cases fuel <;> rfl
    · have hrest : chars.drop 64 ≠ [] := by
        intro hnil
        exact hshort (List.drop_eq_nil_iff.mp hnil)
      have hlength : (chars.drop 64).length = chars.length - 64 := List.length_drop
      obtain ⟨lines, hlines, hend, hlonger, hjoin⟩ :=
        ih (fun c hc => hchars c (List.mem_of_mem_drop hc)) hrest (by omega)
      have hline : (chars.take 64).length = 64 := by
        rw [List.length_take]
        omega
      refine ⟨chars.take 64 ++ '\n' :: lines, ?_, ?_, ?_, ?_⟩
      · rw [hsplit, hlines, List.append_assoc, List.cons_append]
      · have hnonempty : lines ≠ [] := by
          rintro rfl
          have hzero : (chars.drop 64).length = 0 := Nat.le_zero.mp hlonger
          exact hrest (List.length_eq_zero_iff.mp hzero)
        rw [List.getLast?_append, List.getLast?_cons, List.getLast?_eq_some_getLast hnonempty]
        rwa [List.getLast?_eq_some_getLast hnonempty] at hend
      · rw [List.length_append, List.length_cons, hline]
        omega
      · intro fuel' hfuel'
        rw [List.length_append, List.length_cons] at hfuel'
        obtain ⟨fuel', rfl⟩ : ∃ more, fuel' = more + 1 := ⟨fuel' - 1, by omega⟩
        rw [joinLines?_line (fun c hc => hchars c (List.mem_of_mem_take hc)) hline,
          hjoin fuel' (by omega), Option.map_some, List.take_append_drop]

/-- Nothing else than a label is written as one: of its characters, and without dashes. -/
structure IsLabel (label : String) : Prop where
  chars : label.toList.all isLabelChar = true
  noDash : '-' ∉ label.toList

theorem afterOpening?_append (text : List Char) : afterOpening? (opening ++ text) = some text := by
  rw [afterOpening?, after?_append]

theorem afterAnyOpening?_append (text : List Char) : afterAnyOpening? (opening ++ text) = some text := by
  have hcons : opening ++ text = '-' :: ("----BEGIN ".toList ++ text) := rfl
  have hafter := after?_append opening text
  rw [hcons] at hafter ⊢
  rw [afterAnyOpening?, hafter]

/-- What an armour is written as, behind its opening. -/
def tail (a : Armour) : List Char :=
  let body := (Base64.encodePadded Base64.standard a.bytes).toList
  a.label.toList ++ dashes ++ '\n' :: (splitLines (body.length + 1) body ++
    (closing ++ a.label.toList ++ dashes ++ ['\n']))

theorem toList_write (a : Armour) : a.write.toList = opening ++ tail a := by
  rw [Armour.write, String.toList_ofList, tail]
  simp only [List.append_assoc, List.cons_append, List.nil_append]

theorem hasEarlierOpening_write (a : Armour) : hasEarlierOpening a.write = false := by
  rw [hasEarlierOpening, toList_write, afterAnyOpening?_append, afterOpening?_append]
  exact bne_self_eq_false _

theorem read?_write {a : Armour} (hlabel : IsLabel a.label) (hbytes : a.bytes ≠ []) :
    read? a.write = some a := by
  obtain ⟨lines, hlines, hlast, hlength, hjoin⟩ := exists_splitLines
    (fun c hc => isBase64Char_of_mem hc) (Base64.encodePadded_ne_nil Base64.standard hbytes)
    (Nat.lt_succ_self _)
  have hbody : Base64.decodePadded? Base64.standard
      (String.ofList (Base64.encodePadded Base64.standard a.bytes).toList) = some a.bytes := by
    rw [String.ofList_toList, Base64.decodePadded?_encodePadded (by decide +kernel)]
  have htail : (splitLines ((Base64.encodePadded Base64.standard a.bytes).toList.length + 1)
      (Base64.encodePadded Base64.standard a.bytes).toList ++
        (closing ++ a.label.toList ++ dashes ++ ['\n'])) =
      (lines ++ ['\n'] ++ (closing ++ a.label.toList ++ dashes)) ++ ['\n'] := by
    rw [hlines, List.append_assoc (lines ++ ['\n'])]
  have hend : (lines ++ ['\n'] ++ (closing ++ a.label.toList ++ dashes)).getLast? ≠ some '\r' := by
    rw [List.getLast?_append, List.getLast?_append]
    exact nofun
  rw [read?, toList_write, afterOpening?_append]
  simp only [Option.bind_eq_bind, Option.bind_some]
  rw [tail, splitLabel?_append hlabel.noDash]
  simp only [Option.bind_some, List.reverse_nil, List.nil_append, hlabel.chars, Bool.not_true,
    Bool.false_eq_true, if_false, afterLineEnd?, htail]
  rw [beforeLineEnd?_append hend, Option.getD_some, before?_append, Option.bind_some,
    beforeLineEnd?_append hlast, Option.bind_some, hjoin _ (Nat.le_refl _), Option.bind_some, hbody,
    Option.bind_some, String.ofList_toList]

end SessionGate.Pem
