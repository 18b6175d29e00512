import SessionGate.Account.Basic
import SessionGate.Lookup
import SessionGate.Text.Lowercase

/-!
A directory of listed accounts. An account is found by its email in lower case; of several with the
same one the last counts.
-/

namespace SessionGate

/-- Accounts by lower-case email, each email once. -/
structure Directory where
  accounts : List (String × Account)

namespace Directory

def empty : Directory := ⟨[]⟩

def insert (d : Directory) (a : Account) : Directory :=
  let key := Text.lowercase a.email
  ⟨(key, a) :: d.accounts.filter (·.1 ≠ key)⟩

def ofAccounts (accounts : List Account) : Directory := accounts.foldl insert empty

def find? (d : Directory) (username : String) : Option Account :=
  d.accounts.lookup (Text.lowercase username)

def size (d : Directory) : Nat := d.accounts.length

theorem find?_insert (d : Directory) (a : Account) (username : String) :
    (d.insert a).find? username =
      if Text.lowercase username = Text.lowercase a.email then some a else d.find? username := by
  simp only [find?, insert, List.lookup_cons, lookup_filter_ne]
  by_cases h : Text.lowercase username = Text.lowercase a.email
  · simp [h]
  · rw [beq_eq_false_iff_ne.mpr h]
    simp [h]

end Directory

end SessionGate
