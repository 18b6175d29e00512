import SessionGate.Proofs.Toml.Raw
import SessionGate.Proofs.Toml.Document

/-!
Documents that are written line by line. A line that is comment or blank leaves a document as it is,
whatever it says; a line that sets a key to a text between quotes sets it to just that text if every
character of the text stands for itself. Main statements: `Line.reads`, `Line.reads_all`.
-/

namespace SessionGate.Toml

def isScalar : Toml → Bool
  | .string _ | .boolean _ => true
  | .integer n => inBounds n = some n
  | _ => false

theorem scalar_of_isScalar {v : Toml} (h : isScalar v) : Scalar v := by
  cases v with
  | string text => exact .string text
  | boolean b => exact .boolean b
  | integer n => exact .integer (of_decide_eq_true h)
  | float | datetime | array | table => cases h

/-- Lines by what they do. A text is put between quotes as it is, and may have a note after it. -/
inductive Line
  | blank
  | comment (text : List Char)
  | header (name : String)
  | value (key : String) (v : Toml)
  | quoted (key : String) (text : List Char) (note : Option (List Char))

def noteChars : Option (List Char) → List Char
  | none => []
  | some note => ' ' :: ' ' :: '#' :: note

namespace Line

def chars : Line → List Char
  | blank => ['\n']
  | comment text => '#' :: text ++ ['\n']
  | header name => '[' :: name.toList ++ [']', '\n']
  | value key v => lineChars (key, v)
  | quoted key text note =>
    key.toList ++ ' ' :: '=' :: ' ' :: '"' :: text ++ '"' :: noteChars note ++ ['\n']

/-- What the line makes of a document. -/
def step (d : Document) : Line → Option Document
  | blank | comment _ => some d
  | header name => (declareAt [name] d.root).map fun root => { root, here := [name] }
  | value key v => (assign d.here [key] v d.root).map fun root => { d with root }
  | quoted key text _ =>
    (assign d.here [key] (.string (String.ofList text)) d.root).map fun root => { d with root }

/-- The line is read as what it was meant to be. -/
def Sound : Line → Prop
  | blank => True
  | comment text => ∀ c ∈ text, isForbidden c = false
  | header name => isBareKey name
  | value key v => isBareKey key ∧ isScalar v
  | quoted key text note =>
    isBareKey key ∧ (∀ c ∈ text, isRaw c) ∧ ∀ c ∈ note.getD [], isForbidden c = false

theorem Sound.quoted {key : String} {text : List Char} (hkey : isBareKey key)
    (htext : ∀ c ∈ text, isRaw c) : (Line.quoted key text none).Sound :=
  ⟨hkey, htext, List.forall_mem_nil _⟩

instance : (l : Line) → Decidable l.Sound
  | blank => .isTrue trivial
  -- By name, so that the characters of the text are gone through and not all there are.
  | comment text => List.decidableBAll (isForbidden · = false) text
  | header name => inferInstanceAs (Decidable (isBareKey name = true))
  | value key v => inferInstanceAs (Decidable (isBareKey key = true ∧ isScalar v = true))
  | quoted key text note =>
    have := List.decidableBAll (isRaw · = true) text
    have := List.decidableBAll (isForbidden · = false) (note.getD [])
    inferInstanceAs (Decidable (isBareKey key = true ∧ _ ∧ _))

end Line

section

variable {text rest : List Char}

theorem afterComment?_line (h : ∀ c ∈ text, isForbidden c = false) (rest : List Char) :
    afterComment? (text ++ '\n' :: rest) = some ('\n' :: rest) := by
  have htake : (text ++ '\n' :: rest).takeWhile (!isForbidden ·) = text := by
    rw [List.takeWhile_append_of_pos fun c hc => by simp [h c hc]]
    exact List.append_nil text
  rw [afterComment?, htake, List.drop_left]
  rfl

theorem afterStatement?_note {note : Option (List Char)}
    (h : ∀ c ∈ note.getD [], isForbidden c = false) (rest : List Char) :
    afterStatement? (noteChars note ++ '\n' :: rest) = some rest := by
  cases note with
  | none => rfl
  | some words =>
    change ((afterComment? (words ++ '\n' :: rest)).bind fun rest =>
      if rest = [] then some [] else newline? rest) = some rest
    rw [Option.getD_some] at h
    rw [afterComment?_line h]
    rfl

theorem length_le_of_afterComment? (h : afterComment? text = some rest) : rest.length ≤ text.length := by
  rw [afterComment?] at h
  split at h
  · obtain rfl := Option.some.inj h
    rw [List.length_drop]
    exact Nat.sub_le _ _
  · cases h

/-- Fuel beyond the length of a text changes nothing. -/
theorem skipSpace?_fuel {fuel fuel' : Nat} (h : text.length < fuel) (h' : text.length < fuel') :
    skipSpace? fuel text = skipSpace? fuel' text := by
  induction fuel generalizing text fuel' with
  | zero => cases h
  | succ fuel ih =>
    obtain ⟨fuel', rfl⟩ := Nat.exists_eq_succ_of_ne_zero (Nat.ne_zero_of_lt h')
    have hblanks : (skipBlanks text).length ≤ text.length := List.length_dropWhile_le _ _
    rw [skipSpace?, skipSpace?]
    split
    · next more heq =>
      rw [heq, List.length_cons] at hblanks
      cases hafter : afterComment? more with
      | none => rfl
      | some after =>
        have hle := length_le_of_afterComment? hafter
        exact ih (by omega) (by omega)
    · split
      · next after hafter =>
        have hlt : after.length < (skipBlanks text).length := by
          rcases newline?_eq_some hafter with heq | heq <;> simp only [heq, List.length_cons] <;> omega
        exact ih (by omega) (by omega)
      · rfl

end

/-- A line that sets a key to what stands after a quote. -/
theorem statement?_quoted {key : String} (h : isBareKey key) (d : Document) (more : List Char) :
    statement? d (key.toList ++ ' ' :: '=' :: ' ' :: '"' :: more) =
      (string? ('"' :: more)).bind fun x =>
        (afterStatement? x.2).bind fun rest =>
          (assign d.here [key] (.string x.1) d.root).bind fun root => some ({ d with root }, rest) := by
  rw [statement?_key h]
  change ((value? _ ('"' :: more)).bind _) = _
  rw [value?, Option.bind_map]
  rfl

namespace Line

variable {d d' : Document}

theorem reads_comment {text : List Char} (h : ∀ c ∈ text, isForbidden c = false) (d : Document) :
    Reads (comment text).chars d d := by
  intro rest fuel hfuel
  have hchars : (comment text).chars ++ rest = '#' :: (text ++ '\n' :: rest) := by simp [chars]
  rw [hchars] at hfuel ⊢
  simp only [List.length_cons, List.length_append] at hfuel
  obtain ⟨fuel, rfl⟩ := Nat.exists_eq_succ_of_ne_zero (Nat.ne_zero_of_lt hfuel)
  have hskip : skipSpace? (('#' :: (text ++ '\n' :: rest)).length + 1) ('#' :: (text ++ '\n' :: rest)) =
      skipSpace? (rest.length + 1) rest := by
    change (afterComment? (text ++ '\n' :: rest)).bind (skipSpace? _) = _
    rw [afterComment?_line h, Option.bind_some, List.length_cons, skipSpace?_newline]
    refine skipSpace?_fuel ?_ (Nat.lt_succ_self _)
    simp only [List.length_append, List.length_cons]
    omega
  refine ⟨fuel + 1, by omega, ?_⟩
  rw [statements?, statements?, hskip]

theorem reads_quoted {key : String} {text : List Char} {note : Option (List Char)}
    (h : (quoted key text note).Sound) {root : Entries}
    (hassign : assign d.here [key] (.string (String.ofList text)) d.root = some root) :
    Reads (quoted key text note).chars d { d with root } := by
  obtain ⟨hkey, htext, hnote⟩ := h
  obtain ⟨c, more, hcons, hc, -⟩ := exists_bareChar hkey
  refine .statement (c := c) ?_ (solid_of_isBareChar hc) fun rest => ?_
  · simp [chars, hcons]
  · have hchars : (quoted key text note).chars ++ rest =
        key.toList ++ ' ' :: '=' :: ' ' :: '"' :: (text ++ '"' :: (noteChars note ++ '\n' :: rest)) := by
      simp [chars]
    have hend : (noteChars note ++ '\n' :: rest).head? ≠ some '"' := by
      cases note <;> exact fun h => absurd (Option.some.inj h) (by decide)
    rw [hchars, statement?_quoted hkey, string?_raw htext fun _ => hend, Option.bind_some,
      afterStatement?_note hnote, Option.bind_some, hassign, Option.bind_some]

theorem reads {l : Line} (h : l.Sound) (hstep : l.step d = some d') : Reads l.chars d d' := by
  cases l with
  | blank =>
    obtain rfl := Option.some.inj hstep
    exact .newline d
  | comment text =>
    obtain rfl := Option.some.inj hstep
    exact reads_comment h d
  | header name =>
    obtain ⟨root, hdeclare, rfl⟩ := Option.map_eq_some_iff.mp hstep
    refine .statement rfl (by unfold Solid; decide) fun rest => ?_
    simpa [chars] using statement?_header h hdeclare
  | value key v =>
    obtain ⟨root, hassign, rfl⟩ := Option.map_eq_some_iff.mp hstep
    exact .line h.1 (.scalar (scalar_of_isScalar h.2)) hassign
  | quoted key text note =>
    obtain ⟨root, hassign, rfl⟩ := Option.map_eq_some_iff.mp hstep
    exact reads_quoted h hassign

end Line

theorem Line.reads_all {lines : List Line} {d d' : Document} (h : ∀ l ∈ lines, l.Sound)
    (hstep : lines.foldlM Line.step d = some d') : Reads (lines.flatMap Line.chars) d d' := by
  induction lines generalizing d with
  | nil =>
    obtain rfl := Option.some.inj hstep
    exact .nil d
  | cons l lines ih =>
    obtain ⟨next, hnext, hlines⟩ := Option.bind_eq_some_iff.mp hstep
    obtain ⟨hl, hrest⟩ := List.forall_mem_cons.mp h
    exact (l.reads hl hnext).append (ih hrest hlines)

end SessionGate.Toml
