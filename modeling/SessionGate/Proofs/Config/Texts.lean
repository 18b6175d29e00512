import SessionGate.Proofs.Config.Interpolation
import SessionGate.Proofs.Config.RoundTrip
import SessionGate.Proofs.Toml.Opening

/-!
The texts of a configuration. Where none of them holds a dollar sign with a brace after it, the whole
configuration is written without a placeholder. Main statement: `not_holdsPlaceholder_toText`.
-/

namespace SessionGate.Config

open Toml

def Tokens.texts (t : Tokens) : List String :=
  [t.secret, t.privateKeyPath, t.keyId, t.issuer, t.audience].flatMap Option.toList
    ++ t.retiredKeys.flatMap fun k => [k.id, k.path]

def Users.texts (u : Users) : List String :=
  u.postgres.toList ++ u.accounts.flatMap fun a => [a.name, a.email, a.passwordHash]

/-- Every text that a configuration is free to choose. -/
def texts (c : Config) : List String :=
  c.server.host :: c.server.corsOrigins ++ c.tokens.texts ++ c.sessions.redisUrl :: c.users.texts
    ++ [c.gateway.header]

def Plain (c : Config) : Prop := ∀ text ∈ c.texts, ¬ ['$', '\x7b'] <:+: text.toList

theorem unopened_presentEntry {key : String} {text : Option String}
    (h : ∀ t ∈ text, NoOpening t.toList) : ∀ e ∈ presentEntry key text, Unopened e.2 := by
  intro e he
  cases text with
  | none => cases he
  | some text =>
    obtain rfl := List.mem_singleton.mp he
    exact .string (h text rfl)

theorem unopened_strings {texts : List String} (h : ∀ text ∈ texts, NoOpening text.toList) :
    Unopened (strings texts) := by
  refine .array fun v hv => ?_
  obtain ⟨text, htext, rfl⟩ := List.mem_map.mp hv
  exact .string (h text htext)

theorem unopened_word {text : String} (h : text.toList.all isPlain) :
    Unopened (.string text) := .string (shut_plain h).noOpening

theorem unopened_server {s : Server} (hhost : NoOpening s.host.toList)
    (horigins : ∀ text ∈ s.corsOrigins, NoOpening text.toList) :
    ∀ e ∈ s.toEntries, Unopened e.2 := by
  simp [Server.toEntries, Unopened.string hhost, Unopened.integer, unopened_strings horigins]

theorem unopened_tokens {t : Tokens} (h : ∀ text ∈ t.texts, NoOpening text.toList) :
    ∀ e ∈ t.toEntries, Unopened e.2 := by
  simp only [Tokens.texts, List.forall_mem_append, List.forall_mem_flatMap, List.forall_mem_cons,
    Option.mem_toList] at h
  obtain ⟨⟨hsecret, hpath, hid, hissuer, haudience, -⟩, hretired⟩ := h
  have hmode : Unopened (.string t.mode.toText) :=
    unopened_word (by cases t.mode <;> decide)
  have hkeys : Unopened (.array (t.retiredKeys.map RetiredKey.toToml)) := by
    refine .array fun v hv => ?_
    obtain ⟨k, hk, rfl⟩ := List.mem_map.mp hv
    obtain ⟨hkid, hkpath, -⟩ := hretired k hk
    exact .table (by simp [Unopened.string hkid, Unopened.string hkpath])
  simp only [Tokens.toEntries, List.forall_mem_append, List.forall_mem_singleton]
  exact ⟨⟨⟨⟨⟨⟨⟨hmode, unopened_presentEntry hsecret⟩, unopened_presentEntry hpath⟩,
    unopened_presentEntry hid⟩, hkeys⟩, unopened_presentEntry hissuer⟩,
    unopened_presentEntry haudience⟩, .integer _⟩

theorem unopened_users {u : Users} (h : ∀ text ∈ u.texts, NoOpening text.toList) :
    ∀ e ∈ u.toEntries, Unopened e.2 := by
  simp only [Users.texts, List.forall_mem_append, List.forall_mem_flatMap, List.forall_mem_cons,
    Option.mem_toList] at h
  obtain ⟨hpostgres, haccounts⟩ := h
  have hbackend : Unopened (.string u.backend.toText) :=
    unopened_word (by cases u.backend <;> decide)
  have hlist : Unopened (.array (u.accounts.map accountToToml)) := by
    refine .array fun v hv => ?_
    obtain ⟨a, ha, rfl⟩ := List.mem_map.mp hv
    obtain ⟨hname, hemail, hhash, -⟩ := haccounts a ha
    have hsubscription : Unopened (.string a.subscription.toText) :=
      unopened_word (by cases a.subscription <;> decide)
    exact .table (by simp [Unopened.string hname, Unopened.string hemail,
      Unopened.string hhash, Unopened.integer, hsubscription])
  simp only [Users.toEntries, List.forall_mem_append, List.forall_mem_singleton]
  exact ⟨⟨hbackend, unopened_presentEntry hpostgres⟩, hlist⟩

theorem unopened_tables {c : Config} (h : c.Plain) :
    ∀ t ∈ c.tables, ∀ e ∈ t.2, Unopened e.2 := by
  have hopen : ∀ text ∈ c.texts, NoOpening text.toList := fun text htext =>
    noOpening_iff.mpr (h text htext)
  simp only [texts, List.cons_append, List.forall_mem_cons, List.forall_mem_append] at hopen
  obtain ⟨hhost, ⟨⟨horigins, htokens⟩, hurl, husers⟩, hheader, -⟩ := hopen
  have hbackend : Unopened (.string c.sessions.backend.toText) :=
    unopened_word (by cases c.sessions.backend <;> decide)
  have hsessions : ∀ e ∈ c.sessions.toEntries, Unopened e.2 := by
    simp [Sessions.toEntries, hbackend, Unopened.string hurl, Unopened.boolean]
  have hgateway : ∀ e ∈ c.gateway.toEntries, Unopened e.2 := by
    simp [Gateway.toEntries, Unopened.string hheader, Unopened.boolean]
  have hpolicy : ∀ e ∈ c.policy.toEntries, Unopened e.2 := by
    simp [Policy.toEntries, Unopened.boolean]
  simp only [tables, List.forall_mem_cons]
  exact ⟨unopened_server hhost horigins, unopened_tokens htokens, hsessions, unopened_users husers,
    hgateway, hpolicy, fun _ ht => (List.not_mem_nil ht).elim⟩

theorem not_holdsPlaceholder_toText {c : Config} (h : c.Plain) :
    ¬ HoldsPlaceholder c.toText := by
  rintro ⟨p, -, hwithin⟩
  have hopening : ['$', '\x7b'] <:+: p.chars := ⟨[], _, rfl⟩
  exact noOpening_iff.mp (noOpening_writeSections (sectioned_tables c) (unopened_tables h))
    (hopening.trans hwithin)

end SessionGate.Config
