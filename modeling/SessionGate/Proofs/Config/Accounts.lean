import SessionGate.Config.Reader
import SessionGate.Proofs.Toml.Lasting

/-!
The one account of a configuration has the hash that is set on a line under the header of the accounts:
nothing after the line changes it, and there is no other account that the line could belong to. Main
statement: `passwordHash_of_line`.
-/

namespace SessionGate.Toml

/-- What is read of a text: all of it but a byte order mark in front. -/
def afterMark : List Char → List Char
  | '\ufeff' :: rest => rest
  | chars => chars

theorem afterMark_append {front back : List Char} (h : back.head? ≠ some '\ufeff') :
    afterMark (front ++ back) = afterMark front ++ back := by
  have hother : ∀ {c : Char} {chars : List Char}, c ≠ '\ufeff' → afterMark (c :: chars) = c :: chars := by
    intro c chars hc
    unfold afterMark
    split
    · next heq => exact absurd (List.cons.inj heq).1 hc
    · rfl
  cases front with
  | nil =>
    cases back with
    | nil => rfl
    | cons c back => exact hother fun hc => h (congrArg some hc)
  | cons c front =>
    by_cases hc : c = '\ufeff'
    · subst hc
      rfl
    · rw [List.cons_append, hother hc, hother hc]
      rfl

theorem read?_eq_afterMark (text : String) : read? text =
    (statements? ((afterMark text.toList).length + 2) ⟨[], []⟩ (afterMark text.toList)).map
      (entriesToToml ·.root) := rfl

end SessionGate.Toml

namespace SessionGate.Config

open Toml (Step)

variable {c : Config} {a : Account} {entries inner : List (String × Toml)}

theorem users_of_ofToml? (h : ofToml? (.table entries) = some c) :
    orElse {} Users.read? (entries.lookup "users") = some c.users := by
  obtain ⟨server, -, h⟩ := Option.bind_eq_some_iff.mp h
  obtain ⟨tokens, -, h⟩ := Option.bind_eq_some_iff.mp h
  obtain ⟨sessions, -, h⟩ := Option.bind_eq_some_iff.mp h
  obtain ⟨users, husers, h⟩ := Option.bind_eq_some_iff.mp h
  obtain ⟨gateway, -, h⟩ := Option.bind_eq_some_iff.mp h
  obtain ⟨policy, -, h⟩ := Option.bind_eq_some_iff.mp h
  obtain rfl := Option.some.inj h
  exact husers

theorem accounts_of_read? {u : Users} (h : Users.read? (.table inner) = some u) :
    orElse [] (list? account?) (inner.lookup "accounts") = some u.accounts := by
  obtain ⟨backend, -, h⟩ := Option.bind_eq_some_iff.mp h
  obtain ⟨postgres, -, h⟩ := Option.bind_eq_some_iff.mp h
  obtain ⟨accounts, haccounts, h⟩ := Option.bind_eq_some_iff.mp h
  obtain rfl := Option.some.inj h
  exact haccounts

/-- Users that are an array of tables, and not one table, have no accounts: the second of the tables would be
the address of a server. -/
theorem accounts_of_tables {items : List Toml.Entries} {u : Users}
    (h : Users.read? (.array (Toml.itemsToToml items)) = some u) : u.accounts = [] := by
  obtain ⟨backend, -, h⟩ := Option.bind_eq_some_iff.mp h
  obtain ⟨postgres, hpostgres, h⟩ := Option.bind_eq_some_iff.mp h
  obtain ⟨accounts, haccounts, h⟩ := Option.bind_eq_some_iff.mp h
  obtain rfl := Option.some.inj h
  rw [Toml.itemsToToml_eq_map] at hpostgres haccounts
  match items with
  | [] | [_] => exact (Option.some.inj haccounts).symm
  | _ :: _ :: _ => cases hpostgres

theorem passwordHash_of_account? {hash : String} (h : account? (.table inner) = some a)
    (hhash : inner.lookup "password_hash" = some (.string hash)) : a.passwordHash = hash := by
  unfold account? at h
  obtain ⟨fields, hfields, h⟩ := Option.bind_eq_some_iff.mp h
  split at h
  · next id name email password role subscription =>
    have hpassword : inner.lookup "password_hash" = some password :=
      (List.cons.inj (List.cons.inj (List.cons.inj (List.cons.inj (Option.some.inj hfields)).2).2).2).1
    obtain rfl := Option.some.inj (hhash.symm.trans hpassword)
    obtain ⟨_, -, h⟩ := Option.bind_eq_some_iff.mp h
    obtain ⟨_, -, h⟩ := Option.bind_eq_some_iff.mp h
    obtain ⟨_, -, h⟩ := Option.bind_eq_some_iff.mp h
    obtain ⟨_, htext, h⟩ := Option.bind_eq_some_iff.mp h
    obtain ⟨_, -, h⟩ := Option.bind_eq_some_iff.mp h
    obtain ⟨_, -, h⟩ := Option.bind_eq_some_iff.mp h
    obtain rfl := Option.some.inj h
    exact (Option.some.inj htext).symm
  · cases h

theorem exists_of_mapM_eq_singleton {α β : Type} {f : α → Option β} {items : List α} {b : β}
    (h : items.mapM f = some [b]) : ∃ item, items = [item] ∧ f item = some b := by
  cases items with
  | nil => cases h
  | cons item items =>
    rw [List.mapM_cons] at h
    obtain ⟨first, hfirst, h⟩ := Option.bind_eq_some_iff.mp h
    obtain ⟨others, hothers, h⟩ := Option.bind_eq_some_iff.mp h
    obtain ⟨rfl, rfl⟩ := List.cons.inj (Option.some.inj h)
    cases items with
    | nil => exact ⟨item, rfl, hfirst⟩
    | cons next items =>
      rw [List.mapM_cons] at hothers
      obtain ⟨_, -, hothers⟩ := Option.bind_eq_some_iff.mp hothers
      obtain ⟨_, -, hothers⟩ := Option.bind_eq_some_iff.mp hothers
      cases hothers

theorem toList_hashOpening :
    "password_hash = \"".toList = "password_hash".toList ++ [' ', '=', ' ', '"'] := by
  decide +kernel

/-- What stands around a hash that is set on a line of its own: above it the header of the accounts is the
last one. -/
def OnLine (front back : List Char) : Prop :=
  ∃ above d below, front = above ++ "password_hash = \"".toList ∧ back = '"' :: below ∧
    Toml.Reads (Toml.afterMark above) ⟨[], []⟩ d ∧ d.here = ["users", "accounts"]

/-- The string that is set under the header of the accounts, in all the places that the header may lead to. -/
theorem passwordHash_of_along {path : List Step} {root : Toml.Entries} {hash : String}
    (h : ofToml? (.table (Toml.entriesToToml root)) = some c) (haccounts : c.users.accounts = [a])
    (halong : Toml.Along ["users", "accounts"] path)
    (hholds : Toml.Node.Holds (.string hash) (path ++ [.key "password_hash"]) (.table .declared root)) :
    a.passwordHash = hash := by
  have husers := users_of_ofToml? h
  rw [Toml.lookup_entriesToToml] at husers
  cases halong with
  | tables _ i halong =>
    -- The users are an array of tables.
    obtain ⟨_, _, _, ⟨⟩, hlookup, items, _, rfl, -⟩ := hholds
    rw [hlookup] at husers
    cases haccounts.symm.trans (accounts_of_tables husers)
  | table _ halong =>
    obtain ⟨_, _, users, ⟨⟩, hlookup, hholds⟩ := hholds
    rw [hlookup] at husers
    cases halong with
    | table _ halong =>
      -- The accounts are one table, and not an array.
      cases halong
      obtain ⟨_, inner, _, rfl, hlookup, _, accounts, _, rfl, -⟩ := hholds
      have hread := accounts_of_read? husers
      rw [Toml.lookup_entriesToToml, hlookup] at hread
      cases hread
    | tables _ i halong =>
      cases halong
      obtain ⟨_, inner, _, rfl, hlookup, items, entries, rfl, hitem, hholds⟩ := hholds
      obtain ⟨_, _, _, ⟨⟩, hhash, rfl⟩ := hholds
      have hread := accounts_of_read? husers
      rw [Toml.lookup_entriesToToml, hlookup, haccounts] at hread
      change (Toml.itemsToToml items).mapM account? = some [a] at hread
      obtain ⟨_, hsingle, haccount⟩ := exists_of_mapM_eq_singleton hread
      rw [Toml.itemsToToml_eq_map] at hsingle
      obtain ⟨only, rfl, rfl⟩ := List.map_eq_singleton_iff.mp hsingle
      obtain rfl := List.mem_singleton.mp (List.mem_of_getElem? hitem)
      refine passwordHash_of_account? haccount ?_
      rw [Toml.lookup_entriesToToml, hhash]
      rfl

theorem passwordHash_of_line {front hash back : List Char} (hline : OnLine front back) (hne : hash ≠ [])
    (hraw : ∀ ch ∈ hash, Toml.isRaw ch) (h : ofText? (String.ofList (front ++ hash ++ back)) = some c)
    (haccounts : c.users.accounts = [a]) : a.passwordHash = String.ofList hash := by
  obtain ⟨above, d, below, rfl, rfl, hreads, hhere⟩ := hline
  have hchars : above ++ "password_hash = \"".toList ++ hash ++ '"' :: below =
      above ++ ("password_hash".toList ++ ' ' :: '=' :: ' ' :: '"' :: (hash ++ '"' :: below)) := by
    simp only [toList_hashOpening, List.append_assoc, List.cons_append, List.nil_append]
  have hmark : ("password_hash".toList ++ ' ' :: '=' :: ' ' :: '"' :: (hash ++ '"' :: below)).head? ≠
      some '\ufeff' := fun hhead => absurd (Option.some.inj hhead) (by decide)
  obtain ⟨entries, hentries, hc⟩ := Option.bind_eq_some_iff.mp h
  rw [hchars, Toml.read?_eq_afterMark, String.toList_ofList, Toml.afterMark_append hmark] at hentries
  obtain ⟨last, hlast, rfl⟩ := Option.map_eq_some_iff.mp hentries
  obtain ⟨fuel, -, hsame⟩ := hreads _ _ (Nat.lt_add_of_pos_right (Nat.succ_pos 1))
  rw [hsame] at hlast
  obtain ⟨s, rest, root, hstring, hassign, hkept⟩ := Toml.exists_string_of_quoted (by decide) hlast
  rw [Toml.string?_raw hraw fun hnil => absurd hnil hne] at hstring
  obtain ⟨rfl, rfl⟩ := Prod.mk.inj (Option.some.inj hstring)
  rw [hhere] at hassign
  obtain ⟨path, halong, hholds⟩ := Toml.Node.exists_holds_of_walk hassign
  exact passwordHash_of_along hc haccounts halong (hkept .declared .declared _ _ (hholds .declared))

end SessionGate.Config
