import SessionGate.Proofs.Encoding.Base64
import SessionGate.Proofs.Json.RoundTrip
import SessionGate.Proofs.Service.Bearer

/-!
The grammar of an assertion. A value carries a JSON object in base64, with equals signs behind it and
blanks around both; the object asserts the session that it has, once, under either of two names. How
the object is spelled makes no difference, nor does what else it has. Main statement:
`assertion_grammar`.
-/

namespace SessionGate

namespace Json

def IsUnder (names : List String) (entry : Option String × Json) : Prop :=
  ∃ name ∈ names, entry.1 = some name

/-- One entry under the names, and no other. -/
theorem only?_eq_some_some_iff {names : List String} {entries : List (Option String × Json)}
    {v : Json} : only? names entries = some (some v) ↔
      ∃ before name after, entries = before ++ (name, v) :: after ∧ IsUnder names (name, v) ∧
        ∀ entry ∈ before ++ after, ¬IsUnder names entry := by
  have hunder : ∀ entry : Option String × Json,
      names.any (some · == entry.1) = true ↔ IsUnder names entry := by
    intro entry
    simp only [List.any_eq_true, beq_iff_eq, eq_comm (b := entry.1), IsUnder]
  have hfilter : only? names entries = some (some v) ↔
      ∃ name, entries.filter (fun entry => names.any (some · == entry.1)) = [(name, v)] := by
    unfold only?
    split
    · next hnone =>
      change entries.filter (fun entry => names.any (some · == entry.1)) = [] at hnone
      simp [hnone]
    · next name w hone =>
      change entries.filter (fun entry => names.any (some · == entry.1)) = [(name, w)] at hone
      simp [hone]
    · next hother =>
      refine iff_of_false (fun h => by cases h) ?_
      rintro ⟨name, hone⟩
      exact hother name v hone
  simp only [hfilter, List.filter_eq_cons_iff, List.filter_eq_nil_iff, hunder]
  constructor
  · rintro ⟨name, before, after, hentries, hbefore, hname, hafter⟩
    exact ⟨before, name, after, hentries, (hunder _).mp hname,
      List.forall_mem_append.mpr ⟨hbefore, hafter⟩⟩
  · rintro ⟨before, name, after, hentries, hname, hothers⟩
    obtain ⟨hbefore, hafter⟩ := List.forall_mem_append.mp hothers
    exact ⟨name, before, after, hentries, hbefore, (hunder _).mpr hname, hafter⟩

theorem text?_eq_some_iff {v : Json} {s : String} : v.text? = some s ↔ v = .text s := by
  cases v <;> simp [text?, text]

end Json

namespace Assertion

/-- An entry under one of the names that a session may stand under. -/
def IsSession (entry : Option String × Json) : Prop :=
  entry.1 = some "sessionId" ∨ entry.1 = some "Uuid"

instance (entry : Option String × Json) : Decidable (IsSession entry) :=
  inferInstanceAs (Decidable (_ ∨ _))

theorem isSession_member_iff {name : String} {v : Json} :
    IsSession (Json.member name v) ↔ name = "sessionId" ∨ name = "Uuid" := by
  simp [IsSession, Json.member]

/-- What the entries of an object assert. Other names do not matter, but have to be texts. -/
structure Asserts (entries : List (Option String × Json)) (s : String) : Prop where
  named : ∀ entry ∈ entries, ∃ name, entry.1 = some name
  once : ∃ before name after, entries = before ++ Json.member name (.text s) :: after ∧
    (name = "sessionId" ∨ name = "Uuid") ∧ ∀ entry ∈ before ++ after, ¬IsSession entry
  nonempty : s ≠ ""

theorem fields?_names_eq_some_iff {entries : List (Option String × Json)} {v : Json} :
    (Json.object entries).fields? names = some [some v] ↔
      (∀ entry ∈ entries, ∃ name, entry.1 = some name) ∧
      Json.only? ["sessionId", "Uuid"] entries = some (some v) := by
  have hnames : (entries.all fun entry => entry.1.isSome) = true ↔
      ∀ entry ∈ entries, ∃ name, entry.1 = some name := by
    simp [Option.isSome_iff_exists]
  change (if (entries.all fun entry => entry.1.isSome) = true then
    [["sessionId", "Uuid"]].mapM (Json.only? · entries) else none) = _ ↔ _
  rw [Option.ite_none_right_eq_some, hnames]
  refine and_congr_right fun _ => ?_
  rw [List.mapM_cons, List.mapM_nil]
  cases Json.only? ["sessionId", "Uuid"] entries with
  | none => exact iff_of_false nofun nofun
  | some id => exact ⟨fun h => by cases h; rfl, fun h => by cases h; rfl⟩

theorem sessionOf_eq_ok_iff {v : Json} {s : String} :
    sessionOf v = .ok s ↔ v.fields? names = some [some (.text s)] ∧ s ≠ "" := by
  constructor
  · intro h
    unfold sessionOf at h
    split at h
    · next id hid =>
      split at h
      · next text htext =>
        split at h
        · cases h
        · next hne =>
          obtain rfl := Except.ok.inj h
          rw [hid, Json.text?_eq_some_iff.mp htext]
          exact ⟨rfl, hne⟩
      · cases h
    · cases h
  · rintro ⟨hid, hne⟩
    unfold sessionOf
    rw [hid]
    exact if_neg hne

theorem sessionOf_object_eq_ok_iff {entries : List (Option String × Json)} {s : String} :
    sessionOf (.object entries) = .ok s ↔ Asserts entries s := by
  have hunder : ∀ entry, Json.IsUnder ["sessionId", "Uuid"] entry ↔ IsSession entry := by
    simp [Json.IsUnder, IsSession]
  rw [sessionOf_eq_ok_iff, fields?_names_eq_some_iff, Json.only?_eq_some_some_iff]
  simp only [hunder]
  constructor
  · rintro ⟨⟨hnamed, before, name, after, rfl, hname, hothers⟩, hne⟩
    rcases hname with rfl | rfl
    · exact ⟨hnamed, ⟨before, _, after, rfl, .inl rfl, hothers⟩, hne⟩
    · exact ⟨hnamed, ⟨before, _, after, rfl, .inr rfl, hothers⟩, hne⟩
  · rintro ⟨hnamed, ⟨before, name, after, hentries, hname, hothers⟩, hne⟩
    exact ⟨⟨hnamed, before, some name, after, hentries, isSession_member_iff.mpr hname, hothers⟩,
      hne⟩

/-- A value that an object comes in: in base64, then equals signs, and blanks around it all. -/
def Carries (value object : String) : Prop :=
  ∃ before padding after, value.toList =
      before ++ (Base64.encode Base64.url object.toUTF8.toList).toList ++ padding ++ after ∧
    (∀ c ∈ padding, c = '=') ∧ ∀ c ∈ before ++ after, Http.IsBlank c

theorem isBlank_eq_false {c : Char} (h : Http.IsGraphic c) : Text.isBlank c = false := by
  rw [Bool.eq_false_iff, ne_eq, Http.isBlank_iff (.inl h)]
  have hle := h.1
  rintro (rfl | rfl) <;> exact absurd hle (by decide)

theorem body_of_carries {value object : String} (h : Carries value object) :
    Http.isVisible value = true ∧
      body value = (Base64.encode Base64.url object.toUTF8.toList).toList := by
  obtain ⟨before, padding, after, hvalue, hpadding, hblank⟩ := h
  have hcode : ∀ c ∈ (Base64.encode Base64.url object.toUTF8.toList).toList,
      c ∈ Base64.url.chars := fun c hc => Base64.mem_chars_of_mem_encode hc
  generalize (Base64.encode Base64.url object.toUTF8.toList).toList = code at hvalue hcode ⊢
  have hgraphic : ∀ c ∈ code ++ padding, Http.IsGraphic c := by
    refine List.forall_mem_append.mpr
      ⟨fun c hc => Http.isGraphic_of_mem_url (hcode c hc), fun c hc => ?_⟩
    rw [hpadding c hc]
    decide
  obtain ⟨hbefore, hafter⟩ := List.forall_mem_append.mp hblank
  have hreadable : Http.Readable value.toList := by
    rw [hvalue, List.append_assoc before]
    exact List.forall_mem_append.mpr ⟨List.forall_mem_append.mpr
      ⟨fun c hc => .inr (hbefore c hc), fun c hc => .inl (hgraphic c hc)⟩,
      fun c hc => .inr (hafter c hc)⟩
  refine ⟨Http.isVisible_iff.mpr hreadable, ?_⟩
  have hblanks : ∀ {chars : List Char}, (∀ c ∈ chars, Http.IsBlank c) → Text.Blanks chars :=
    fun h c hc => (Http.isBlank_iff (.inr (h c hc))).mpr (h c hc)
  rw [body, hvalue, List.append_assoc before, Text.trimChars_append (hblanks hbefore)
    (hblanks hafter) (fun c hc => isBlank_eq_false (hgraphic c (List.mem_of_mem_head? hc)))
    (fun c hc => isBlank_eq_false (hgraphic c (List.mem_of_mem_getLast? hc)))]
  refine Text.reverse_dropWhile_append (fun c hc => ?_) fun c hc => ?_
  · rw [hpadding c hc]
    rfl
  · rw [beq_eq_false_iff_ne]
    rintro rfl
    exact absurd (hcode _ (List.mem_of_mem_getLast? hc)) (by decide)

theorem read_of_carries {value object : String} (h : Carries value object) :
    read value = match Json.read? (Json.bytes object.toList) with
      | none => .error .json
      | some v => sessionOf v := by
  obtain ⟨hvisible, hbody⟩ := body_of_carries h
  rw [read, if_pos hvisible, hbody, Base64.decodeChars?_encode, toList_toUTF8]
  rfl

/-- What may stand behind the text of a value. -/
def Padded (chars : List Char) : Prop :=
  ∃ padding after, chars = padding ++ after ∧ (∀ c ∈ padding, c = '=') ∧
    ∀ c ∈ after, Http.IsBlank c

theorem Padded.of_append {front chars : List Char} (h : Padded (front ++ chars)) :
    Padded chars := by
  obtain ⟨padding, after, hchars, hpadding, hafter⟩ := h
  rcases List.append_eq_append_iff.mp hchars with ⟨more, rfl, rfl⟩ | ⟨more, rfl, rfl⟩
  · exact ⟨more, after, rfl, (List.forall_mem_append.mp hpadding).2, hafter⟩
  · exact ⟨[], chars, rfl, nofun, (List.forall_mem_append.mp hafter).2⟩

theorem exists_body {value : String} (h : Http.Readable value.toList) :
    ∃ before tail, value.toList = before ++ (body value ++ tail) ∧
      (∀ c ∈ before, Http.IsBlank c) ∧ Padded tail := by
  obtain ⟨before, after, hbefore, hafter, hvalue⟩ := Text.exists_trimChars value.toList
  obtain ⟨padding, hpadding, htrimmed⟩ :=
    Text.exists_reverse_dropWhile (· == '=') (Text.trimChars value.toList)
  refine ⟨before, padding ++ after, ?_, ?_, padding, after, rfl, fun c hc => ?_, ?_⟩
  · rw [body, ← List.append_assoc _ padding, ← htrimmed, ← List.append_assoc, ← hvalue]
  · rw [hvalue, Http.readable_append, Http.readable_append] at h
    exact h.1.1.blanks_iff.mp hbefore
  · exact eq_of_beq (hpadding c hc)
  · rw [hvalue, Http.readable_append] at h
    exact h.2.blanks_iff.mp hafter

/-- A character of no text in base64, that belongs neither to the blanks around a value nor to the
equals signs behind its text. -/
def Foreign (value : String) : Prop :=
  ∃ front c back, value.toList = front ++ c :: back ∧ c ∉ Base64.url.chars ∧
    ¬(∀ d ∈ front ++ [c], Http.IsBlank d) ∧ ¬Padded (c :: back)

theorem not_foreign_of_read {value s : String} (h : read value = .ok s) : ¬Foreign value := by
  rintro ⟨front, c, back, hvalue, hc, hfront, hback⟩
  unfold read at h
  split at h
  · next hvisible =>
    split at h
    · cases h
    · next bytes hbytes =>
      obtain ⟨before, tail, hparts, hbefore, htail⟩ := exists_body (Http.isVisible_iff.mp hvisible)
      suffices hmem : c ∈ body value from hc (Base64.mem_chars_of_decodeChars? hbytes hmem)
      rw [hvalue] at hparts
      -- not before the text, and not behind it
      obtain ⟨less, hless⟩ : ∃ less, body value ++ tail = less ++ c :: back := by
        rcases List.append_eq_append_iff.mp hparts with ⟨more, rfl, hmore⟩ | ⟨more, -, hmore⟩
        · cases more with
          | nil => exact ⟨[], hmore.symm⟩
          | cons d more =>
            obtain ⟨rfl, -⟩ := List.cons.inj hmore
            refine absurd (fun e he => hbefore e ?_) hfront
            rw [List.append_cons]
            exact List.mem_append_left more he
        · exact ⟨more, hmore⟩
      rcases List.append_eq_append_iff.mp hless with ⟨more, -, rfl⟩ | ⟨more, hbody, hmore⟩
      · exact absurd htail.of_append hback
      · cases more with
        | nil => exact absurd (hmore ▸ htail) hback
        | cons d more =>
          obtain ⟨rfl, -⟩ := List.cons.inj hmore
          rw [hbody]
          exact List.mem_append_right less List.mem_cons_self
  · cases h

/-- A value that is refused is found malformed, whatever is wrong with it. -/
def Refused (value : String) : Prop :=
  ∃ fault, (read value).mapError Refusal.malformedAssertion = .error (.malformedAssertion fault) ∧
    (Refusal.malformedAssertion fault).response.status = 400

theorem refused_iff {value : String} : Refused value ↔ ∀ s, read value ≠ .ok s := by
  constructor
  · rintro ⟨fault, hfault, -⟩ s hok
    rw [hok] at hfault
    cases hfault
  · intro hnone
    cases hread : read value with
    | error fault => exact ⟨fault, by rw [hread]; rfl, rfl⟩
    | ok s => exact absurd hread (hnone s)

/-- A value with an object of these entries in it, however they are spelled. -/
def Holds (value : String) (entries : List (Option String × Json)) : Prop :=
  ∃ object, Carries value object ∧ Json.IsText object.toList (.object entries)

theorem holds_write {value : String} {entries : List (Option String × Json)}
    (h : Carries value (Json.object entries).write) : Holds value entries := by
  refine ⟨_, h, ?_⟩
  rw [Json.write, String.toList_ofList]
  exact Json.isText_chars _

theorem Holds.read_eq_ok_iff {value : String} {entries : List (Option String × Json)}
    (h : Holds value entries) {s : String} : read value = .ok s ↔ Asserts entries s := by
  obtain ⟨object, hcarries, htext⟩ := h
  rw [read_of_carries hcarries, htext.read?]
  exact sessionOf_object_eq_ok_iff

theorem Holds.refused {value : String} {entries : List (Option String × Json)}
    (h : Holds value entries) (hnone : ∀ s, ¬Asserts entries s) : Refused value :=
  refused_iff.mpr fun s hok => hnone s (h.read_eq_ok_iff.mp hok)

theorem Asserts.countP_eq_one {entries : List (Option String × Json)} {s : String}
    (h : Asserts entries s) : entries.countP (IsSession ·) = 1 := by
  obtain ⟨before, name, after, rfl, hname, hothers⟩ := h.once
  obtain ⟨hbefore, hafter⟩ := List.forall_mem_append.mp hothers
  have hsession : IsSession (Json.member name (.text s)) := isSession_member_iff.mpr hname
  have hzero : ∀ {others : List (Option String × Json)}, (∀ entry ∈ others, ¬IsSession entry) →
      others.countP (IsSession ·) = 0 :=
    fun hnone => List.countP_eq_zero.mpr fun entry hentry => by simpa using hnone entry hentry
  rw [List.countP_append, List.countP_cons, hzero hbefore, hzero hafter,
    if_pos (decide_eq_true hsession)]

theorem Asserts.eq_text {entries : List (Option String × Json)} {s : String}
    (h : Asserts entries s) {entry : Option String × Json} (hmem : entry ∈ entries)
    (hsession : IsSession entry) : entry.2 = .text s := by
  obtain ⟨before, name, after, rfl, -, hothers⟩ := h.once
  rcases List.mem_append.mp hmem with hbefore | hafter
  · exact absurd hsession (hothers entry (List.mem_append_left after hbefore))
  rcases List.mem_cons.mp hafter with rfl | hafter
  · rfl
  · exact absurd hsession (hothers entry (List.mem_append_right before hafter))

/-- What an assertion is read as, and the ways in which it may be malformed. -/
structure Grammar (value : String) : Prop where
  ok_iff : ∀ entries s, Holds value entries → (read value = .ok s ↔ Asserts entries s)
  neither : ∀ entries, Holds value entries → (∀ entry ∈ entries, ¬IsSession entry) → Refused value
  several : ∀ before first between second after,
    Holds value (before ++ first :: (between ++ second :: after)) → IsSession first →
      IsSession second → Refused value
  unfit : ∀ entries entry, Holds value entries → entry ∈ entries → IsSession entry →
    (∀ s, entry.2 = .text s → s = "") → Refused value
  foreign : Foreign value → Refused value

end Assertion

theorem assertion_grammar (value : String) : Assertion.Grammar value where
  ok_iff entries s hholds := hholds.read_eq_ok_iff
  neither entries hholds hnone := by
    refine hholds.refused fun s hasserts => ?_
    obtain ⟨before, name, after, rfl, hname, -⟩ := hasserts.once
    exact hnone _ (List.mem_append_right before List.mem_cons_self)
      (Assertion.isSession_member_iff.mpr hname)
  several before first between second after hholds hfirst hsecond := by
    refine hholds.refused fun s hasserts => ?_
    have hcount := hasserts.countP_eq_one
    rw [List.countP_append, List.countP_cons, List.countP_append, List.countP_cons,
      if_pos (decide_eq_true hfirst), if_pos (decide_eq_true hsecond)] at hcount
    omega
  unfit entries entry hholds hmem hsession hunfit :=
    hholds.refused fun s hasserts =>
      hasserts.nonempty (hunfit s (hasserts.eq_text hmem hsession))
  foreign hforeign :=
    Assertion.refused_iff.mpr fun _ hok => Assertion.not_foreign_of_read hok hforeign

/-- An escape in the session, blanks and equals signs make no difference, but a session under both
names does. -/
theorem assertion_grammar_sample :
    Assertion.read "\t eyJleHAiOm51bGwsIlV1aWQiOiJhXCLwn5iAIn0=== " = .ok "a\"😀" ∧
      Assertion.Refused "eyJVdWlkIjoiYSIsInNlc3Npb25JZCI6ImEifQ" := by
  have hasserts : Assertion.Asserts
      [Json.member "exp" .null, Json.member "Uuid" (.text "a\"😀")] "a\"😀" :=
    ⟨by simp [Json.member], ⟨[Json.member "exp" .null], "Uuid", [], rfl, .inr rfl, by decide⟩,
      by decide⟩
  constructor
  · refine ((assertion_grammar _).ok_iff _ _ (Assertion.holds_write ?_)).mpr hasserts
    refine ⟨['\t', ' '], ['=', '=', '='], [' '], ?_, by simp, by simp [Http.IsBlank]⟩
    rw [toList_toUTF8]
    decide +kernel
  · refine (assertion_grammar _).several [] (Json.member "Uuid" (.text "a")) []
      (Json.member "sessionId" (.text "a")) [] (Assertion.holds_write ?_) (.inr rfl) (.inl rfl)
    refine ⟨[], [], [], ?_, by simp, by simp⟩
    rw [toList_toUTF8]
    decide +kernel

end SessionGate
