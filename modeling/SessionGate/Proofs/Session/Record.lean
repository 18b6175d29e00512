import SessionGate.Session.Store
import SessionGate.Proofs.Text.Decimal

/-!
What a stored record reads back as. Subject, role and subscription come back as they were; a name or
an email comes back unless it is empty.
-/

namespace SessionGate

theorem Role.ofText_toText (r : Role) : Role.ofText r.toText = .ok r := by
  cases r <;> rfl

theorem Subscription.ofText_toText (s : Subscription) : Subscription.ofText s.toText = .ok s := by
  rw [ofText, ofText?_eq_some_iff.mpr rfl]

namespace Session

def Record.asRead (r : Record) : Record :=
  { r with name := r.name.filter (· ≠ ""), email := r.email.filter (· ≠ "") }

theorem optional_of_lookup {fields : Fields} {name : String} {text : Option String}
    (h : fields.lookup name = some (text.getD "")) :
    optional fields name = text.filter (· ≠ "") := by
  rw [optional, h]
  cases text <;> rfl

theorem ofFields_toFields (r : Record) : Record.ofFields r.toFields = .ok r.asRead := by
  have hname : optional r.toFields nameField = r.name.filter (· ≠ "") :=
    optional_of_lookup rfl
  have hemail : optional r.toFields emailField = r.email.filter (· ≠ "") :=
    optional_of_lookup rfl
  have hsubject : required r.toFields subjectField = .ok (Text.writeInt64 r.subject) := rfl
  have hrole : required r.toFields roleField = .ok r.role.toText := rfl
  have hsubscription : required r.toFields subscriptionField = .ok r.subscription.toText := rfl
  have hnumber : (Text.readInt64 (Text.writeInt64 r.subject)).mapError RecordFault.subject =
      .ok r.subject := by
    rw [Text.readInt64_writeInt64]
    rfl
  have hroleText : (Role.ofText r.role.toText).mapError RecordFault.account = .ok r.role := by
    rw [Role.ofText_toText]
    rfl
  have hstatus : (Subscription.ofText r.subscription.toText).mapError RecordFault.account =
      .ok r.subscription := by
    rw [Subscription.ofText_toText]
    rfl
  rw [Record.ofFields, hsubject, hrole, hsubscription, hname, hemail]
  simp only [bind, Except.bind, hnumber, hroleText, hstatus]
  rfl

theorem read_toFields (r : Record) :
    Value.read (.fields r.toFields) = .ok (.record r.asRead) := by
  change ((Record.ofFields r.toFields).map Stored.record).mapError StoreFault.corrupt = _
  rw [ofFields_toFields]
  rfl

end Session

end SessionGate
