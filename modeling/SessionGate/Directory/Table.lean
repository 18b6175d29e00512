import SessionGate.Refusal

/-!
Accounts in a table of a database. A user name is looked up by one query, which may find one row at
most; a row becomes an account if every cell is filled and makes sense.
-/

namespace SessionGate.Table

def query : String :=
  "SELECT id, name, email, password, role, subscription_status FROM users WHERE lower(email) = lower($1)"

/-- A row of the answer; an empty cell is `none`. -/
structure Row where
  id : Option Int64
  name : Option String
  email : Option String
  password : Option String
  role : Option Int16
  subscription : Option String

def filled (cell : Option α) : Except DirectoryFault α :=
  match cell with
  | some a => .ok a
  | none => .error .unavailable

def roleOf (number : Int) : Except RowFault Role :=
  if 0 ≤ number ∧ number ≤ 255 then
    match Role.ofNat? number.toNat with
    | some r => .ok r
    | none => .error (.account (.unknownRole number.toNat))
  else .error (.roleOutOfRange number)

def Row.account (row : Row) : Except DirectoryFault Account := do
  let role ← (roleOf (← filled row.role).toInt).mapError .corrupt
  let subscription ←
    (Subscription.ofText (← filled row.subscription)).mapError (.corrupt ∘ .account)
  return { id := ← filled row.id, name := ← filled row.name, email := ← filled row.email
           passwordHash := ← filled row.password, role, subscription }

def find (rows : List Row) : Except DirectoryFault (Option Account) :=
  match rows with
  | [] => .ok none
  | [row] => row.account.map some
  | _ => .error .unavailable

end SessionGate.Table
