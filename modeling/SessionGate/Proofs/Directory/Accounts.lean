import Mathlib.Data.Finset.Card
import SessionGate.Directory.Static
import SessionGate.Proofs.Text.Lowercase

/-!
A directory of listed accounts is a map by email in lower case, in which of several accounts under one
email the last in the list counts. Main statement: `ofAccounts_lastWins`.
-/

namespace SessionGate.Directory

/-- The accounts that a username may stand for, in order. -/
def named (accounts : List Account) (username : String) : List Account :=
  accounts.filter fun a => Text.lowercase a.email = Text.lowercase username

def keys (d : Directory) : List String := d.accounts.map Prod.fst

variable {d : Directory} {accounts : List Account}

theorem find?_foldl_insert (d : Directory) (accounts : List Account) (username : String) :
    (accounts.foldl insert d).find? username =
      ((named accounts username).getLast?).or (d.find? username) := by
  induction accounts generalizing d with
  | nil => rfl
  | cons a accounts ih =>
    rw [List.foldl_cons, ih, find?_insert, named, named, List.filter_cons]
    split
    · next hname =>
      rw [if_pos (decide_eq_true hname.symm), List.getLast?_cons]
      cases (accounts.filter fun a => Text.lowercase a.email = Text.lowercase username).getLast? <;> rfl
    · next hname => rw [if_neg (by simpa using Ne.symm hname)]

theorem find?_ofAccounts (accounts : List Account) (username : String) :
    (ofAccounts accounts).find? username = (named accounts username).getLast? := by
  rw [ofAccounts, find?_foldl_insert]
  exact Option.or_none

theorem mem_keys_insert {a : Account} {key : String} :
    key ∈ (d.insert a).keys ↔ key = Text.lowercase a.email ∨ key ∈ d.keys := by
  by_cases hkey : key = Text.lowercase a.email <;> simp [keys, insert, hkey]

theorem nodup_keys_insert (h : d.keys.Nodup) (a : Account) : (d.insert a).keys.Nodup := by
  refine List.nodup_cons.mpr ⟨?_, h.sublist (List.filter_sublist.map Prod.fst)⟩
  simp

theorem nodup_keys_foldl_insert (h : d.keys.Nodup) (accounts : List Account) :
    (accounts.foldl insert d).keys.Nodup := by
  induction accounts generalizing d with
  | nil => exact h
  | cons a accounts ih => exact ih (nodup_keys_insert h a)

theorem mem_keys_foldl_insert {key : String} : key ∈ (accounts.foldl insert d).keys ↔
    key ∈ d.keys ∨ key ∈ accounts.map fun a => Text.lowercase a.email := by
  induction accounts generalizing d with
  | nil => simp
  | cons a accounts ih =>
    rw [List.foldl_cons, ih, mem_keys_insert, List.map_cons, List.mem_cons]
    tauto

theorem size_ofAccounts (accounts : List Account) : (ofAccounts accounts).size =
    (accounts.map fun a => Text.lowercase a.email).toFinset.card := by
  have hnodup : (ofAccounts accounts).keys.Nodup :=
    nodup_keys_foldl_insert (d := empty) List.nodup_nil accounts
  have hkeys : (ofAccounts accounts).keys.toFinset =
      (accounts.map fun a => Text.lowercase a.email).toFinset := by
    ext key
    rw [List.mem_toFinset, List.mem_toFinset, ofAccounts, mem_keys_foldl_insert]
    exact or_iff_right List.not_mem_nil
  rw [← hkeys, List.toFinset_card_of_nodup hnodup, keys, List.length_map, size]

/-- What is found in a directory of accounts, and how many there are. -/
structure LastWins (accounts : List Account) : Prop where
  found_iff : ∀ username a, (ofAccounts accounts).find? username = some a ↔
    ∃ before after, accounts = before ++ a :: after ∧
      Text.lowercase a.email = Text.lowercase username ∧
      ∀ b ∈ after, Text.lowercase b.email ≠ Text.lowercase username
  missing_iff : ∀ username, (ofAccounts accounts).find? username = none ↔
    ∀ a ∈ accounts, Text.lowercase a.email ≠ Text.lowercase username
  size_eq : (ofAccounts accounts).size =
    (accounts.map fun a => Text.lowercase a.email).toFinset.card
  anyCase : ∀ before a after, accounts = before ++ a :: after →
    (∀ b ∈ after, Text.lowercase b.email ≠ Text.lowercase a.email) →
    ∀ username : String, username.toList.map Char.toLower = a.email.toList.map Char.toLower →
    (ofAccounts accounts).find? username = some a
  order : ∀ accounts', (∀ username, named accounts' username = named accounts username) →
    (∀ username, (ofAccounts accounts').find? username = (ofAccounts accounts).find? username) ∧
      (ofAccounts accounts').size = (ofAccounts accounts).size

theorem getLast?_named_eq_some_iff {username : String} {a : Account} :
    (named accounts username).getLast? = some a ↔ ∃ before after, accounts = before ++ a :: after ∧
      Text.lowercase a.email = Text.lowercase username ∧
      ∀ b ∈ after, Text.lowercase b.email ≠ Text.lowercase username := by
  rw [named, List.getLast?_filter, List.find?_eq_some_iff_append, decide_eq_true_iff]
  constructor
  · rintro ⟨hname, after, before, hreverse, hafter⟩
    refine ⟨before.reverse, after.reverse, ?_, hname, fun b hb => ?_⟩
    · rw [← List.reverse_reverse accounts, hreverse, List.reverse_append, List.reverse_cons,
        List.append_assoc, List.singleton_append]
    · simpa using hafter b (List.mem_reverse.mp hb)
  · rintro ⟨before, after, rfl, hname, hafter⟩
    refine ⟨hname, after.reverse, before.reverse, ?_, fun b hb => ?_⟩
    · rw [List.reverse_append, List.reverse_cons, List.append_assoc, List.singleton_append]
    · simpa using hafter b (List.mem_reverse.mp hb)

theorem mem_iff_of_named {accounts' : List Account}
    (h : ∀ username, named accounts' username = named accounts username) (a : Account) :
    a ∈ accounts' ↔ a ∈ accounts := by
  have hself : ∀ accounts, a ∈ named accounts a.email ↔ a ∈ accounts := fun _ =>
    List.mem_filter.trans (and_iff_left (decide_eq_true rfl))
  rw [← hself accounts', h, hself]

theorem ofAccounts_lastWins (accounts : List Account) : LastWins accounts where
  found_iff username a := by rw [find?_ofAccounts, getLast?_named_eq_some_iff]
  missing_iff username := by
    rw [find?_ofAccounts, List.getLast?_eq_none_iff, named, List.filter_eq_nil_iff]
    exact forall₂_congr fun a _ => not_congr decide_eq_true_iff
  size_eq := size_ofAccounts accounts
  anyCase before a after hsplit hlast username husername := by
    have hlower := Text.lowercase_eq_of_map_toLower husername
    rw [find?_ofAccounts, getLast?_named_eq_some_iff]
    exact ⟨before, after, hsplit, hlower.symm, fun b hb => hlower ▸ hlast b hb⟩
  order accounts' hnamed := by
    have hmem := mem_iff_of_named hnamed
    have hkeys : (accounts'.map fun a => Text.lowercase a.email).toFinset =
        (accounts.map fun a => Text.lowercase a.email).toFinset := by
      ext key
      simp only [List.mem_toFinset, List.mem_map, hmem]
    refine ⟨fun username => ?_, ?_⟩
    · rw [find?_ofAccounts, find?_ofAccounts, hnamed]
    · rw [size_ofAccounts, size_ofAccounts, hkeys]

namespace Sample

def account (id : Int64) (email : String) : Account where
  id := id
  name := "Ada"
  email := email
  passwordHash := ""
  role := .member
  subscription := .active

/-- The first and the last account have one email in lower case. -/
def shared : List Account := [account 1 "ADA@x", account 2 "bob@x", account 3 "Ada@X"]

end Sample

theorem ofAccounts_lastWins_sample :
    (ofAccounts Sample.shared).find? "ada@x" = some (Sample.account 3 "Ada@X") ∧
      (ofAccounts Sample.shared).find? "ada" = none ∧ (ofAccounts Sample.shared).size = 2 := by
  have hwins := ofAccounts_lastWins Sample.shared
  have hsplit : Sample.shared =
      [Sample.account 1 "ADA@x", Sample.account 2 "bob@x"] ++ Sample.account 3 "Ada@X" :: [] := rfl
  have hkeys : Sample.shared.map (fun a => Text.lowercase a.email) = ["ada@x", "bob@x", "ada@x"] := by
    decide +kernel
  refine ⟨?_, ?_, ?_⟩
  · exact hwins.anyCase _ (Sample.account 3 "Ada@X") [] hsplit (List.forall_mem_nil _) "ada@x"
      (by decide +kernel)
  · rw [hwins.missing_iff]
    decide +kernel
  · rw [hwins.size_eq, hkeys]
    decide

end SessionGate.Directory
