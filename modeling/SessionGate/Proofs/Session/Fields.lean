import SessionGate.Proofs.Except
import SessionGate.Proofs.Session.Record
import SessionGate.Proofs.Text.Words

/-!
The grammar of stored field maps. A map is read exactly if its subject is a decimal integer that fits, its
role a small number with blanks around it and its subscription one of two words (`ofFields_eq_ok_iff`);
the record that is read is written so that it reads back the same. Main statement: `field_format`.
-/

namespace SessionGate

namespace Role

def digit : Role → Char
  | admin => '1'
  | member => '2'

theorem isDigit_digit (r : Role) : r.digit.isDigit = true := by
  cases r <;> decide

theorem digit_ne_zero (r : Role) : r.digit ≠ '0' := by
  cases r <;> decide

theorem digitValue_digit (r : Role) : Text.digitValue r.digit = r.number := by
  cases r <;> rfl

/-- How a role is spelled: by its digit, after zeros and a plus sign or none, with blanks around. -/
def Spelled (r : Role) (text : String) : Prop :=
  ∃ before sign zeros after, text.toList = before ++ (sign ++ zeros ++ [r.digit]) ++ after ∧
    Text.Blanks before ∧ Text.Blanks after ∧ (sign = [] ∨ sign = ['+']) ∧ ∀ c ∈ zeros, c = '0'

theorem ofText_eq_ok_iff_number {r : Role} {text : String} :
    ofText text = .ok r ↔ Text.readNatUpTo 255 (Text.trim text) = some r.number := by
  unfold ofText
  cases Text.readNatUpTo 255 (Text.trim text) with
  | none => exact iff_of_false nofun nofun
  | some n =>
    dsimp only
    rw [Option.some.injEq, ← ofNat?_eq_some_iff]
    cases ofNat? n with
    | none => exact iff_of_false nofun nofun
    | some r' => rw [Except.ok.injEq, Option.some.injEq]

theorem solid_spelled {sign zeros : List Char} (hsign : sign = [] ∨ sign = ['+'])
    (hzeros : ∀ c ∈ zeros, c = '0') (r : Role) : Text.Solid (sign ++ zeros ++ [r.digit]) := by
  intro c hc
  simp only [List.mem_append, List.mem_singleton] at hc
  rcases hc with (hc | hc) | rfl
  · rcases hsign with rfl | rfl
    · cases hc
    · rw [List.mem_singleton.mp hc]
      decide
  · rw [hzeros c hc]
    decide
  · cases r <;> decide

theorem ofText_eq_ok_iff {r : Role} {text : String} : ofText text = .ok r ↔ r.Spelled text := by
  rw [ofText_eq_ok_iff_number, Text.readNatUpTo_eq_some_iff, Text.trim, String.toList_ofList,
    ← digitValue_digit]
  constructor
  · rintro ⟨sign, digits, htext, hsign, hdigits, -⟩
    obtain ⟨zeros, rfl, hzeros⟩ := (Text.isDigits_iff_zeros r.isDigit_digit r.digit_ne_zero).mp hdigits
    obtain ⟨before, after, hbefore, hafter, hchars⟩ := Text.exists_trimChars text.toList
    refine ⟨before, sign, zeros, after, ?_, hbefore, hafter, hsign, hzeros⟩
    rw [hchars, htext, List.append_assoc sign]
  · rintro ⟨before, sign, zeros, after, htext, hbefore, hafter, hsign, hzeros⟩
    have hsolid := solid_spelled hsign hzeros r
    refine ⟨sign, zeros ++ [r.digit], ?_, hsign,
      (Text.isDigits_iff_zeros r.isDigit_digit r.digit_ne_zero).mpr ⟨zeros, rfl, hzeros⟩, ?_⟩
    · rw [htext, Text.trimChars_append hbefore hafter
        (fun c hc => hsolid c (List.mem_of_mem_head? hc))
        (fun c hc => hsolid c (List.mem_of_getLast? hc)), List.append_assoc]
    · have hlt := Text.digitValue_lt r.isDigit_digit
      omega

end Role

theorem Subscription.ofText_eq_ok_iff {s : Subscription} {text : String} :
    ofText text = .ok s ↔ text = s.toText := by
  rw [← ofText?_eq_some_iff, ofText]
  cases ofText? text with
  | none => exact iff_of_false (fun h => by cases h) (fun h => by cases h)
  | some s' => rw [Except.ok.injEq, Option.some.injEq]

namespace Session

variable {fields : Fields} {r : Record}

theorem required_eq_ok_iff {name text : String} :
    required fields name = .ok text ↔ fields.lookup name = some text := by
  unfold required
  cases fields.lookup name <;> simp

theorem optional_eq_some_iff {name text : String} :
    optional fields name = some text ↔ fields.lookup name = some text ∧ text ≠ "" := by
  rw [optional, Option.filter_eq_some_iff, decide_eq_true_eq]

/-- A map of fields that holds a record. -/
structure Holds (fields : Fields) (r : Record) : Prop where
  subject : ∃ text, fields.lookup subjectField = some text ∧ Text.IsDecimal text.toList r.subject.toInt
  role : ∃ text, fields.lookup roleField = some text ∧ r.role.Spelled text
  subscription : fields.lookup subscriptionField = some r.subscription.toText
  name : ∀ text, r.name = some text ↔ fields.lookup nameField = some text ∧ text ≠ ""
  email : ∀ text, r.email = some text ↔ fields.lookup emailField = some text ∧ text ≠ ""

theorem ofFields_eq_ok_iff : Record.ofFields fields = .ok r ↔ Holds fields r := by
  simp only [Record.ofFields, Except.bind_eq_ok_iff, required_eq_ok_iff, Except.mapError_eq_ok_iff,
    Text.readInt64_eq_ok_iff, Role.ofText_eq_ok_iff, Subscription.ofText_eq_ok_iff]
  constructor
  · rintro ⟨subjectText, hsubject, subject, hdecimal, roleText, hrole, role, hspelled,
      word, hword, subscription, rfl, hr⟩
    obtain rfl := Except.ok.inj hr
    exact {
      subject := ⟨subjectText, hsubject, hdecimal⟩
      role := ⟨roleText, hrole, hspelled⟩
      subscription := hword
      name := fun text => optional_eq_some_iff
      email := fun text => optional_eq_some_iff }
  · rintro ⟨⟨subjectText, hsubject, hdecimal⟩, ⟨roleText, hrole, hspelled⟩, hword, hname, hemail⟩
    refine ⟨subjectText, hsubject, r.subject, hdecimal, roleText, hrole, r.role, hspelled,
      _, hword, r.subscription, rfl, ?_⟩
    have hname : optional fields nameField = r.name :=
      Option.ext fun text => optional_eq_some_iff.trans (hname text).symm
    have hemail : optional fields emailField = r.email :=
      Option.ext fun text => optional_eq_some_iff.trans (hemail text).symm
    rw [hname, hemail]
    rfl

/-- What is asked of a field map before it can be read. -/
structure WellFormed (fields : Fields) : Prop where
  subject : ∃ text, fields.lookup subjectField = some text ∧
    ∃ z : Int, Text.IsDecimal text.toList z ∧ -2 ^ 63 ≤ z ∧ z < 2 ^ 63
  role : ∃ text, fields.lookup roleField = some text ∧ ∃ role : Role, role.Spelled text
  subscription : ∃ text, fields.lookup subscriptionField = some text ∧
    (text = "ACTIVE" ∨ text = "INACTIVE")

theorem Holds.wellFormed (h : Holds fields r) : WellFormed fields where
  subject := by
    obtain ⟨text, htext, hdecimal⟩ := h.subject
    exact ⟨text, htext, _, hdecimal, r.subject.le_toInt, r.subject.toInt_lt⟩
  role := by
    obtain ⟨text, htext, hspelled⟩ := h.role
    exact ⟨text, htext, _, hspelled⟩
  subscription := by
    refine ⟨_, h.subscription, ?_⟩
    cases r.subscription
    · exact .inl rfl
    · exact .inr rfl

theorem WellFormed.exists_holds (h : WellFormed fields) : ∃ r, Holds fields r := by
  obtain ⟨⟨text, htext, z, hdecimal, hle, hlt⟩, ⟨roleText, hrole, role, hspelled⟩, word, hword, hwords⟩ := h
  have hsubscription : ∃ subscription : Subscription, word = subscription.toText := by
    rcases hwords with rfl | rfl
    · exact ⟨.active, rfl⟩
    · exact ⟨.inactive, rfl⟩
  obtain ⟨subscription, rfl⟩ := hsubscription
  exact ⟨{ subject := Int64.ofInt z, role, subscription
           name := optional fields nameField, email := optional fields emailField },
    { subject := ⟨text, htext, by rwa [Int64.toInt_ofInt_of_le hle hlt]⟩
      role := ⟨roleText, hrole, hspelled⟩
      subscription := hword
      name := fun _ => optional_eq_some_iff
      email := fun _ => optional_eq_some_iff }⟩

theorem filter_ne_empty (text : Option String) :
    text.filter (· ≠ "") = if text = some "" then none else text := by
  cases text <;> simp [Option.filter, ite_not]

/-- Display fields that are read are not empty, so that writing them loses nothing. -/
theorem Holds.asRead_eq (h : Holds fields r) : r.asRead = r := by
  have hname : r.name ≠ some "" := fun hempty => ((h.name "").mp hempty).2 rfl
  have hemail : r.email ≠ some "" := fun hempty => ((h.email "").mp hempty).2 rfl
  rw [Record.asRead, filter_ne_empty, filter_ne_empty, if_neg hname, if_neg hemail]

/-- How field maps are read and written. -/
structure FieldFormat (fields : Fields) : Prop where
  read_iff : (∃ r, Record.ofFields fields = .ok r) ↔ WellFormed fields
  corrupt : ¬ WellFormed fields → ∃ fault, Record.ofFields fields = .error fault ∧
    (fields ≠ [] → Value.read (.fields fields) = .error (.corrupt fault))
  holds : ∀ r, Record.ofFields fields = .ok r → Holds fields r
  stable : ∀ r, Record.ofFields fields = .ok r → Record.ofFields r.toFields = .ok r
  written : ∀ r : Record, Record.ofFields r.toFields = .ok
    { r with name := if r.name = some "" then none else r.name
             email := if r.email = some "" then none else r.email }

theorem field_format (fields : Fields) : FieldFormat fields where
  read_iff := by
    simp only [ofFields_eq_ok_iff]
    exact ⟨fun ⟨_, h⟩ => h.wellFormed, WellFormed.exists_holds⟩
  corrupt hfields := by
    cases h : Record.ofFields fields with
    | error fault =>
      refine ⟨fault, rfl, fun hne => ?_⟩
      obtain ⟨field, rest, rfl⟩ := List.exists_cons_of_ne_nil hne
      change ((Record.ofFields (field :: rest)).map Stored.record).mapError StoreFault.corrupt = _
      rw [h]
      rfl
    | ok r => exact absurd (ofFields_eq_ok_iff.mp h).wellFormed hfields
  holds _ := ofFields_eq_ok_iff.mp
  stable r h := by rw [ofFields_toFields, (ofFields_eq_ok_iff.mp h).asRead_eq]
  written r := by rw [ofFields_toFields, Record.asRead, filter_ne_empty, filter_ne_empty]

end Session

end SessionGate
