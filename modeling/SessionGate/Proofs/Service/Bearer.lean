import SessionGate.Proofs.Text.Words
import SessionGate.Service.Gate

/-!
The grammar of an authorization header. A token is borne by a value of two words, the scheme and the
token, with blanks between and around them, and by no other (`bearerToken_eq_ok_iff`). Main statement:
`bearer_grammar`.
-/

namespace SessionGate

namespace Http

/-- The blanks of a header. -/
def IsBlank (c : Char) : Prop := c = ' ' ∨ c = '\t'

/-- Printing ASCII that is no blank. -/
def IsGraphic (c : Char) : Prop := 0x21 ≤ c.toNat ∧ c.toNat ≤ 0x7e

instance (c : Char) : Decidable (IsGraphic c) := inferInstanceAs (Decidable (_ ∧ _))

theorem isGraphic_of_mem_url {c : Char} (hc : c ∈ Base64.url.chars) : IsGraphic c := by
  have hall : Base64.url.chars.all (IsGraphic ·) = true := by
    decide +kernel
  exact of_decide_eq_true (List.all_eq_true.mp hall c hc)

/-- The first of the values under a name. -/
def IsFirst (headers : Headers) (name value : String) : Prop :=
  ∃ before after, headers = before ++ (name, value) :: after ∧ ∀ header ∈ before, header.1 ≠ name

theorem header?_eq_some_iff {headers : Headers} {name value : String} :
    header? headers name = some value ↔ IsFirst headers name value := by
  rw [header?, List.lookup_eq_some_iff]
  simp only [IsFirst, bne_iff_ne, ne_comm (a := name)]

def Readable (chars : List Char) : Prop := ∀ c ∈ chars, IsGraphic c ∨ IsBlank c

theorem isVisible_iff {text : String} : isVisible text = true ↔ Readable text.toList := by
  have hspace : ∀ c : Char, c.toNat = 0x20 ↔ c = ' ' := fun c => Char.toNat_inj (d := ' ')
  rw [isVisible, List.all_eq_true]
  refine forall₂_congr fun c _ => ?_
  simp only [Bool.or_eq_true, Bool.and_eq_true, decide_eq_true_eq, beq_iff_eq, IsGraphic, IsBlank,
    ← hspace, ← or_assoc]
  refine or_congr_left ?_
  omega

/-- What is blank in a readable header is blank in every text. -/
theorem isBlank_iff {c : Char} (h : IsGraphic c ∨ IsBlank c) : Text.isBlank c = true ↔ IsBlank c := by
  rcases h with ⟨hle, hlt⟩ | hblank
  · refine iff_of_false ?_ ?_
    · simp only [Text.isBlank, Bool.or_eq_true, Bool.and_eq_true, decide_eq_true_eq, beq_iff_eq]
      omega
    · rintro (rfl | rfl) <;> exact absurd hle (by decide)
  · refine iff_of_true ?_ hblank
    rcases hblank with rfl | rfl <;> decide

theorem Readable.blanks_iff {chars : List Char} (h : Readable chars) :
    Text.Blanks chars ↔ ∀ c ∈ chars, IsBlank c :=
  forall₂_congr fun c hc => isBlank_iff (h c hc)

theorem Readable.solid_iff {chars : List Char} (h : Readable chars) :
    Text.Solid chars ↔ ∀ c ∈ chars, ¬ IsBlank c :=
  forall₂_congr fun c hc => by rw [← isBlank_iff (h c hc), Bool.not_eq_true]

theorem readable_append {front back : List Char} :
    Readable (front ++ back) ↔ Readable front ∧ Readable back :=
  List.forall_mem_append

end Http

/-- How a header value bears a token: after a scheme, with blanks between them and around both. -/
structure Bears (value token : String) : Prop where
  readable : Http.Readable value.toList
  spelled : ∃ before scheme gap after,
    value.toList = before ++ scheme ++ gap ++ token.toList ++ after ∧
      scheme.map Char.toLower = "bearer".toList ∧ gap ≠ [] ∧
      ∀ c ∈ before ++ gap ++ after, Http.IsBlank c
  nonempty : token ≠ ""
  solid : ∀ c ∈ token.toList, ¬ Http.IsBlank c

variable {headers : Http.Headers} {token : String}

theorem not_isBlank_of_mem_scheme {scheme : List Char} (h : scheme.map Char.toLower = "bearer".toList)
    {c : Char} (hc : c ∈ scheme) : ¬ Http.IsBlank c := by
  have hmem : c.toLower ∈ "bearer".toList := h ▸ List.mem_map_of_mem hc
  rintro (rfl | rfl) <;> exact absurd hmem (by decide)

theorem bears_iff {value : String} : Bears value token ↔ Http.Readable value.toList ∧
    ∃ scheme, Text.words value.toList = [scheme, token.toList] ∧
      scheme.map Char.toLower = "bearer".toList := by
  constructor
  · rintro ⟨hreadable, ⟨before, scheme, gap, after, hvalue, hscheme, hgap, hblank⟩, hne, hsolid⟩
    refine ⟨hreadable, scheme, ?_, hscheme⟩
    rw [hvalue] at hreadable ⊢
    simp only [Http.readable_append] at hreadable
    obtain ⟨⟨⟨⟨hbefore, hfirst⟩, hbetween⟩, hlast⟩, hafter⟩ := hreadable
    simp only [List.forall_mem_append] at hblank
    obtain ⟨⟨hblank, hblank'⟩, hblank''⟩ := hblank
    refine Text.words_eq_pair_iff.mpr ⟨before, gap, after, rfl, hbefore.blanks_iff.mpr hblank,
      hbetween.blanks_iff.mpr hblank', hafter.blanks_iff.mpr hblank'', hgap,
      hfirst.solid_iff.mpr fun c hc => not_isBlank_of_mem_scheme hscheme hc, ?_,
      hlast.solid_iff.mpr hsolid, mt String.toList_eq_nil_iff.mp hne⟩
    rintro rfl
    cases hscheme
  · rintro ⟨hreadable, scheme, hwords, hscheme⟩
    obtain ⟨before, gap, after, hvalue, hbefore, hgap, hafter, hgapne, -, -, hsolid, hne⟩ :=
      Text.words_eq_pair_iff.mp hwords
    refine ⟨hreadable, ⟨before, scheme, gap, after, hvalue, hscheme, hgapne, ?_⟩,
      mt String.toList_eq_nil_iff.mpr hne, ?_⟩
    all_goals
      rw [hvalue] at hreadable
      simp only [Http.readable_append] at hreadable
      obtain ⟨⟨⟨⟨hreadable, -⟩, hreadable'⟩, hlast⟩, hreadable''⟩ := hreadable
    · simp only [List.forall_mem_append]
      exact ⟨⟨hreadable.blanks_iff.mp hbefore, hreadable'.blanks_iff.mp hgap⟩,
        hreadable''.blanks_iff.mp hafter⟩
    · exact hlast.solid_iff.mp hsolid

theorem bearerToken_eq_ok_iff : bearerToken headers = .ok token ↔
    ∃ value, Http.IsFirst headers "authorization" value ∧ Bears value token := by
  simp only [← Http.header?_eq_some_iff]
  unfold bearerToken
  cases Http.header? headers "authorization" with
  | none => exact iff_of_false nofun nofun
  | some value =>
    simp only [Option.some.injEq, exists_eq_left', bears_iff, ← Http.isVisible_iff]
    cases hvisible : Http.isVisible value with
    | false => simp
    | true =>
      rw [if_pos rfl]
      split
      · next scheme second hwords =>
        rw [hwords]
        split
        · next hscheme =>
          simp only [Except.ok.injEq, true_and, List.cons.injEq, and_true]
          constructor
          · rintro rfl
            exact ⟨scheme, ⟨rfl, String.toList_ofList.symm⟩, hscheme⟩
          · rintro ⟨scheme', ⟨rfl, rfl⟩, -⟩
            exact String.ofList_toList
        · next hscheme =>
          refine iff_of_false nofun ?_
          rintro ⟨-, scheme', hpair, hscheme'⟩
          obtain ⟨rfl, -⟩ := List.cons.inj hpair
          exact hscheme hscheme'
      · next hwords =>
        refine iff_of_false nofun ?_
        rintro ⟨-, scheme, hpair, -⟩
        exact hwords scheme token.toList hpair

/-- Whatever else a request carries, nothing but missing credentials is found fault with. -/
theorem bearerToken_cases (headers : Http.Headers) :
    (∃ token, bearerToken headers = .ok token) ∨ bearerToken headers = .error .missingCredentials := by
  unfold bearerToken
  repeat' split
  all_goals
    first
      | exact .inl ⟨_, rfl⟩
      | exact .inr rfl

theorem bears_bearer (hne : token ≠ "") (hgraphic : ∀ c ∈ token.toList, Http.IsGraphic c) :
    Bears ("Bearer " ++ token) token where
  readable := by
    have hscheme : Http.Readable "Bearer ".toList := Http.isVisible_iff.mp rfl
    rw [String.toList_append]
    exact Http.readable_append.mpr ⟨hscheme, fun c hc => .inl (hgraphic c hc)⟩
  spelled := by
    refine ⟨[], "Bearer".toList, [' '], [], ?_, rfl, List.cons_ne_nil _ _, ?_⟩
    · rw [String.toList_append, List.append_nil]
      rfl
    · simp [Http.IsBlank]
  nonempty := hne
  solid c hc := by
    have hle := (hgraphic c hc).1
    rintro (rfl | rfl) <;> exact absurd hle (by decide)

/-- Tokens are borne by the first authorization header and by its grammar alone. -/
structure BearerGrammar (headers : Http.Headers) : Prop where
  ok_iff : ∀ token, bearerToken headers = .ok token ↔
    ∃ value, Http.IsFirst headers "authorization" value ∧ Bears value token
  refused_iff : bearerToken headers = .error .missingCredentials ↔
    ∀ value token, Http.IsFirst headers "authorization" value → ¬ Bears value token
  bearer : ∀ token, token ≠ "" → (∀ c ∈ token.toList, Http.IsGraphic c) →
    Http.IsFirst headers "authorization" ("Bearer " ++ token) → bearerToken headers = .ok token
  solid : ∀ token, bearerToken headers = .ok token →
    token ≠ "" ∧ ∀ c ∈ token.toList, ¬ Http.IsBlank c

theorem bearer_grammar (headers : Http.Headers) : BearerGrammar headers where
  ok_iff token := bearerToken_eq_ok_iff
  refused_iff := by
    constructor
    · intro hrefused value token hvalue hbears
      rw [bearerToken_eq_ok_iff.mpr ⟨value, hvalue, hbears⟩] at hrefused
      cases hrefused
    · intro hnone
      rcases bearerToken_cases headers with ⟨token, hok⟩ | hrefused
      · obtain ⟨value, hvalue, hbears⟩ := bearerToken_eq_ok_iff.mp hok
        exact absurd hbears (hnone value token hvalue)
      · exact hrefused
  bearer token hne hgraphic hvalue :=
    bearerToken_eq_ok_iff.mpr ⟨_, hvalue, bears_bearer hne hgraphic⟩
  solid token hok := by
    obtain ⟨value, -, hbears⟩ := bearerToken_eq_ok_iff.mp hok
    exact ⟨hbears.nonempty, hbears.solid⟩

/-- Blanks, capitals in the scheme and a second header make no difference, but a third word does. -/
theorem bearer_grammar_sample :
    bearerToken [("host", "a"), ("authorization", " \tbeaRER \ta.b= "), ("authorization", "Bearer c")] =
        .ok "a.b=" ∧
      ∀ token, ¬ Bears "Bearer a b" token := by
  constructor
  · refine (bearer_grammar _).ok_iff "a.b=" |>.mpr ⟨_, ⟨[("host", "a")], _, rfl, by decide⟩, ?_⟩
    exact {
      readable := Http.isVisible_iff.mp rfl
      spelled := ⟨[' ', '\t'], "beaRER".toList, [' ', '\t'], [' '], rfl, rfl, by decide,
        by simp [Http.IsBlank]⟩
      nonempty := by decide
      solid := by simp [Http.IsBlank] }
  · intro token
    exact (bearer_grammar [("authorization", "Bearer a b")]).refused_iff.mp rfl _ token
      ⟨[], [], rfl, nofun⟩

end SessionGate
