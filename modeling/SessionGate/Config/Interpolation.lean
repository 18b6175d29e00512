/-!
Placeholders in a configuration file: `${NAME}` and `${NAME:-default}`. One pass from left to right
replaces each by the value of its variable, or else by its default; what is put in is not looked at
again. Main statement: a placeholder read at the front of a text is written there.
-/

namespace SessionGate.Config

structure Placeholder where
  name : List Char
  fallback : Option (List Char)
deriving DecidableEq, Repr

def isNameStart (c : Char) : Bool := ('A' ≤ c && c ≤ 'Z') || c == '_'

def isNameChar (c : Char) : Bool := isNameStart c || ('0' ≤ c && c ≤ '9')

namespace Placeholder

def chars (p : Placeholder) : List Char :=
  '$' :: '\x7b' :: p.name ++ (match p.fallback with
    | some text => ':' :: '-' :: text
    | none => []) ++ ['\x7d']

structure WellFormed (p : Placeholder) : Prop where
  start : ∃ c ∈ p.name.head?, isNameStart c
  name : ∀ c ∈ p.name, isNameChar c
  fallback : ∀ text ∈ p.fallback, '\x7d' ∉ text

/-- What stands in its place. -/
def value (environment : String → Option String) (p : Placeholder) : List Char :=
  match environment (String.ofList p.name) with
  | some text => text.toList
  | none => p.fallback.getD []

def read? : List Char → Option (Placeholder × List Char)
  | '$' :: '\x7b' :: chars =>
    let name := chars.takeWhile isNameChar
    if name.head?.any isNameStart then
      match chars.drop name.length with
      | '\x7d' :: rest => some ({ name, fallback := none }, rest)
      | ':' :: '-' :: more =>
        let text := more.takeWhile (· != '\x7d')
        match more.drop text.length with
        | _ :: rest => some ({ name, fallback := some text }, rest)
        | [] => none
      | _ => none
    else none
  | _ => none

theorem drop_length_takeWhile (p : Char → Bool) (l : List Char) :
    l.drop (l.takeWhile p).length = l.dropWhile p := by
  induction l with
  | nil => rfl
  | cons c l ih => by_cases h : p c <;> simp [h, ih]

theorem eq_append_of_read? {text rest : List Char} {p : Placeholder}
    (h : read? text = some (p, rest)) : text = p.chars ++ rest := by
  unfold read? at h
  split at h
  · next chars =>
    dsimp only at h
    split at h
    · simp only [drop_length_takeWhile] at h
      have hchars := (List.takeWhile_append_dropWhile (p := isNameChar) (l := chars)).symm
      split at h
      · next heq =>
        simp only [Option.some.injEq, Prod.mk.injEq] at h
        obtain ⟨rfl, rfl⟩ := h
        rw [heq] at hchars
        simp [Placeholder.chars, ← hchars]
      · next more heq =>
        split at h
        · next c r hr =>
          simp only [Option.some.injEq, Prod.mk.injEq] at h
          obtain ⟨rfl, rfl⟩ := h
          have hc : c = '\x7d' := by
            have := List.head?_dropWhile_not (· != '\x7d') more
            rw [hr] at this
            simpa using this
          have hmore :=
            (List.takeWhile_append_dropWhile (p := (· != '\x7d')) (l := more)).symm
          rw [hr, hc] at hmore
          rw [heq] at hchars
          simp only [Placeholder.chars, List.cons_append, List.append_assoc, List.nil_append,
            List.cons.injEq, true_and, ← hmore]
          simpa using hchars
        · simp at h
      · simp at h
    · simp at h
  · simp at h

theorem length_lt_of_read? {text rest : List Char} {p : Placeholder}
    (h : read? text = some (p, rest)) : rest.length < text.length := by
  rw [eq_append_of_read? h]
  simp only [chars, List.length_append, List.length_cons]
  omega

end Placeholder

def expand (environment : String → Option String) (chars : List Char) : List Char :=
  match chars with
  | [] => []
  | c :: rest =>
    match _h : Placeholder.read? (c :: rest) with
    | some (p, after) => p.value environment ++ expand environment after
    | none => c :: expand environment rest
termination_by chars.length
decreasing_by
  · exact Placeholder.length_lt_of_read? _h
  · exact Nat.lt_succ_self _

def interpolate (environment : String → Option String) (text : String) : String :=
  String.ofList (expand environment text.toList)

end SessionGate.Config
