import SessionGate.Config.Reader
import SessionGate.Config.Writer
import SessionGate.Proofs.Toml.Sections

/-!
A configuration reads back from its own text: what is written is a document of sections, and of a
table only its keys count, not their order. Main statement: `ofText?_toText`.
-/

namespace SessionGate.Toml

theorem section_of_names {entries : List (String × Toml)} (names : List String)
    (hkeys : (entries.map Prod.fst).Sublist names) (hnames : names.Nodup ∧ ∀ n ∈ names, isBareKey n)
    (hmember : ∀ e ∈ entries, Member e.2) : Section entries where
  bare e he := hnames.2 e.1 (hkeys.subset (List.mem_map_of_mem he))
  member := hmember
  nodup := hnames.1.sublist hkeys

theorem flatTable_of_names {entries : List (String × Toml)} (names : List String)
    (hkeys : entries.map Prod.fst = names) (hnames : names.Nodup ∧ ∀ n ∈ names, isBareKey n)
    (hscalar : ∀ e ∈ entries, Scalar e.2) : FlatTable entries where
  bare e he := hnames.2 e.1 (hkeys ▸ List.mem_map_of_mem he)
  flat e he := .scalar (hscalar e he)
  nodup := hkeys ▸ hnames.1

theorem member_string (text : String) : Member (.string text) := .flat (.scalar (.string text))

theorem member_boolean (b : Bool) : Member (.boolean b) := .flat (.scalar (.boolean b))

theorem inBounds_eq {n : Int} (hlow : -0x8000000000000000 ≤ n) (hhigh : n < 0x10000000000000000) :
    inBounds n = some n := if_pos ⟨by omega, by omega⟩

theorem member_nat {n : Nat} (h : n < 0x10000000000000000) : Member (.integer n) :=
  .flat (.scalar (.integer (inBounds_eq (by omega) (by omega))))

theorem member_array {items : List Toml}
    (h : ∀ v ∈ items, ∃ entries, v = .table entries ∧ FlatTable entries) : Member (.array items) := by
  obtain ⟨tables, rfl, htables⟩ :
      ∃ tables : List (List (String × Toml)), items = tables.map .table ∧ ∀ t ∈ tables, FlatTable t := by
    induction items with
    | nil => exact ⟨[], rfl, fun _ ht => (List.not_mem_nil ht).elim⟩
    | cons v items ih =>
      obtain ⟨⟨entries, rfl, hentries⟩, hitems⟩ := List.forall_mem_cons.mp h
      obtain ⟨tables, rfl, htables⟩ := ih hitems
      exact ⟨entries :: tables, rfl, List.forall_mem_cons.mpr ⟨hentries, htables⟩⟩
  cases tables with
  | nil => exact .flat (.array fun _ hv => (List.not_mem_nil hv).elim)
  | cons t tables => exact .tables (List.cons_ne_nil t tables) htables

end SessionGate.Toml

namespace SessionGate.Config

open Toml

theorem member_strings (texts : List String) : Member (strings texts) := by
  refine .flat (.array fun v hv => ?_)
  obtain ⟨text, -, rfl⟩ := List.mem_map.mp hv
  exact .string text

theorem keys_presentEntry (key : String) (text : Option String) :
    ((presentEntry key text).map Prod.fst).Sublist [key] := by
  cases text with
  | none => exact List.nil_sublist _
  | some text => exact List.Sublist.refl _

theorem member_presentEntry (key : String) (text : Option String) :
    ∀ e ∈ presentEntry key text, Member e.2 := by
  intro e he
  cases text with
  | none => cases he
  | some text =>
    obtain rfl := List.mem_singleton.mp he
    exact member_string text

theorem lookup_presentEntry (key name : String) (text : Option String) :
    (presentEntry key text).lookup name = if name = key then text.map .string else none := by
  cases text with
  | none => exact (ite_self none).symm
  | some text =>
    by_cases h : name = key
    · subst h
      rw [if_pos rfl]
      exact List.lookup_cons_self
    · rw [if_neg h]
      exact (List.lookup_cons ..).trans (by rw [beq_false_of_ne h]; rfl)

theorem flatTable_retiredKey (k : RetiredKey) :
    ∃ entries, k.toToml = .table entries ∧ FlatTable entries :=
  ⟨_, rfl, flatTable_of_names RetiredKey.names rfl (by decide) (by simp [Scalar.string])⟩

theorem flatTable_account (a : Account) :
    ∃ entries, accountToToml a = .table entries ∧ FlatTable entries := by
  have hid : Scalar (.integer a.id.toInt) :=
    .integer (inBounds_eq a.id.le_toInt (Int.lt_trans a.id.toInt_lt (by decide)))
  have hrole : Scalar (.integer a.role.number) :=
    .integer (by cases a.role <;> decide)
  exact ⟨_, rfl, flatTable_of_names accountNames rfl (by decide)
    (by simp [Scalar.string, hid, hrole])⟩

theorem section_server (s : Server) : Section s.toEntries := by
  refine section_of_names Server.names (List.Sublist.refl _) (by decide) ?_
  have hport := member_nat (n := s.port.toNat) (Nat.lt_trans s.port.toNat_lt (by decide))
  simp [Server.toEntries, member_string, member_strings, hport]

theorem section_tokens (t : Tokens) : Section t.toEntries := by
  refine section_of_names Tokens.names ?_ (by decide) ?_
  · rw [Tokens.toEntries]
    simp only [List.map_append]
    exact (((((((List.Sublist.refl ["mode"]).append (keys_presentEntry _ _)).append
      (keys_presentEntry _ _)).append (keys_presentEntry _ _)).append
      (List.Sublist.refl ["retired_keys"])).append (keys_presentEntry _ _)).append
      (keys_presentEntry _ _)).append (List.Sublist.refl ["leeway_seconds"])
  · have hretired : Member (.array (t.retiredKeys.map RetiredKey.toToml)) := by
      refine member_array fun v hv => ?_
      obtain ⟨k, -, rfl⟩ := List.mem_map.mp hv
      exact flatTable_retiredKey k
    simp only [Tokens.toEntries, List.forall_mem_append, List.forall_mem_singleton]
    exact ⟨⟨⟨⟨⟨⟨⟨member_string _, member_presentEntry _ _⟩, member_presentEntry _ _⟩,
      member_presentEntry _ _⟩, hretired⟩, member_presentEntry _ _⟩, member_presentEntry _ _⟩,
      member_nat t.leewaySeconds.toNat_lt⟩

theorem section_sessions (s : Sessions) : Section s.toEntries := by
  refine section_of_names Sessions.names (List.Sublist.refl _) (by decide) ?_
  simp [Sessions.toEntries, member_string, member_boolean]

theorem section_users (u : Users) : Section u.toEntries := by
  refine section_of_names Users.names ?_ (by decide) ?_
  · rw [Users.toEntries]
    simp only [List.map_append]
    exact ((List.Sublist.refl ["backend"]).append (keys_presentEntry _ _)).append
      (List.Sublist.refl ["accounts"])
  · have haccounts : Member (.array (u.accounts.map accountToToml)) := by
      refine member_array fun v hv => ?_
      obtain ⟨a, -, rfl⟩ := List.mem_map.mp hv
      exact flatTable_account a
    simp only [Users.toEntries, List.forall_mem_append, List.forall_mem_singleton]
    exact ⟨⟨member_string _, member_presentEntry _ _⟩, haccounts⟩

theorem section_gateway (g : Gateway) : Section g.toEntries := by
  refine section_of_names Gateway.names (List.Sublist.refl _) (by decide) ?_
  simp [Gateway.toEntries, member_string, member_boolean]

theorem section_policy (p : Policy) : Section p.toEntries := by
  refine section_of_names Policy.names (List.Sublist.refl _) (by decide) ?_
  simp [Policy.toEntries, member_boolean]

section

variable {α : Type} {read : Toml → Option α}

theorem list?_map (write : α → Toml) (h : ∀ a, read (write a) = some a) (items : List α) :
    list? read (.array (items.map write)) = some items := by
  rw [list?]
  induction items with
  | nil => rfl
  | cons a items ih => rw [List.map_cons, List.mapM_cons, h, ih]; rfl

end

theorem natBelow?_integer {bound n : Nat} (h : n < bound) :
    natBelow? bound (.integer n) = some n := by
  rw [natBelow?, if_pos ⟨Int.natCast_nonneg n, Int.ofNat_lt.mpr h⟩, Int.toNat_natCast]

theorem int64?_integer (n : Int64) : int64? (.integer n.toInt) = some n := by
  rw [int64?, if_pos ⟨n.le_toInt, n.toInt_lt⟩, Int64.ofInt_toInt]

theorem fields?_valuesFirst {entries : List (String × Toml)} (h : Section entries)
    (names : List String) :
    fields? names (.table (valuesFirst entries)) = some (names.map fun name => entries.lookup name) := by
  simp only [fields?, lookup_valuesFirst h]

theorem orElse_some {α : Type} (fallback : α) (read : Toml → Option α) (v : Toml) :
    orElse fallback read (some v) = read v := rfl

theorem present?_string (text : Option String) :
    present? string? (text.map .string) = some text := by
  cases text <;> rfl

theorem Server.read?_toEntries (s : Server) :
    Server.read? (.table (valuesFirst s.toEntries)) = some s := by
  have hport : natBelow? 0x10000 (.integer s.port.toNat) = some s.port.toNat :=
    natBelow?_integer s.port.toNat_lt
  have horigins : list? string? (strings s.corsOrigins) = some s.corsOrigins :=
    list?_map .string (fun _ => rfl) _
  have hfields : Server.names.map (fun name => s.toEntries.lookup name) =
      [some (.string s.host), some (.integer s.port.toNat), some (strings s.corsOrigins)] := rfl
  rw [Server.read?, fields?_valuesFirst (section_server s), hfields, Option.bind_eq_bind,
    Option.bind_some]
  dsimp only
  rw [orElse_some, orElse_some, orElse_some, hport, horigins]
  simp [string?]

theorem Tokens.read?_toEntries (t : Tokens) :
    Tokens.read? (.table (valuesFirst t.toEntries)) = some t := by
  have hmode : (word? (.string t.mode.toText)).bind SigningMode.ofText? = some t.mode := by
    cases t.mode <;> rfl
  have hretired : list? RetiredKey.read? (.array (t.retiredKeys.map RetiredKey.toToml)) =
      some t.retiredKeys := list?_map RetiredKey.toToml (fun _ => rfl) _
  have hleeway : natBelow? 0x10000000000000000 (.integer t.leewaySeconds.toNat) =
      some t.leewaySeconds.toNat := natBelow?_integer t.leewaySeconds.toNat_lt
  have hfields : Tokens.names.map (fun name => t.toEntries.lookup name) =
      [some (.string t.mode.toText), t.secret.map .string, t.privateKeyPath.map .string,
        t.keyId.map .string, some (.array (t.retiredKeys.map RetiredKey.toToml)),
        t.issuer.map .string, t.audience.map .string, some (.integer t.leewaySeconds.toNat)] := by
    simp [Tokens.names, Tokens.toEntries, List.lookup_append, lookup_presentEntry, List.lookup_cons]
  rw [Tokens.read?, fields?_valuesFirst (section_tokens t), hfields, Option.bind_eq_bind,
    Option.bind_some]
  dsimp only
  rw [orElse_some, orElse_some, orElse_some, hmode, hretired, hleeway]
  simp [present?_string]

theorem Sessions.read?_toEntries (s : Sessions) :
    Sessions.read? (.table (valuesFirst s.toEntries)) = some s := by
  have hbackend : (word? (.string s.backend.toText)).bind SessionBackend.ofText? = some s.backend := by
    cases s.backend <;> rfl
  have hfields : Sessions.names.map (fun name => s.toEntries.lookup name) =
      [some (.string s.backend.toText), some (.string s.redisUrl), some (.boolean s.acceptLegacy)] :=
    rfl
  rw [Sessions.read?, fields?_valuesFirst (section_sessions s), hfields, Option.bind_eq_bind,
    Option.bind_some]
  dsimp only
  rw [orElse_some, orElse_some, orElse_some, hbackend]
  rfl

theorem account?_accountToToml (a : Account) : account? (accountToToml a) = some a := by
  have hrole : (natBelow? 256 (.integer a.role.number)).bind Role.ofNat? = some a.role := by
    cases a.role <;> rfl
  have hsubscription : (word? (.string a.subscription.toText)).bind Subscription.ofText? =
      some a.subscription := Subscription.ofText?_eq_some_iff.mpr rfl
  have hfields : fields? accountNames (accountToToml a) =
      some [some (.integer a.id.toInt), some (.string a.name), some (.string a.email),
        some (.string a.passwordHash), some (.integer a.role.number),
        some (.string a.subscription.toText)] := rfl
  rw [account?, hfields, Option.bind_eq_bind, Option.bind_some]
  dsimp only
  rw [orElse_some, int64?_integer, hrole, hsubscription]
  simp [string?]

theorem Users.read?_toEntries (u : Users) :
    Users.read? (.table (valuesFirst u.toEntries)) = some u := by
  have hbackend : (word? (.string u.backend.toText)).bind UserBackend.ofText? = some u.backend := by
    cases u.backend <;> rfl
  have haccounts : list? account? (.array (u.accounts.map accountToToml)) = some u.accounts :=
    list?_map accountToToml account?_accountToToml _
  have hfields : Users.names.map (fun name => u.toEntries.lookup name) =
      [some (.string u.backend.toText), u.postgres.map .string,
        some (.array (u.accounts.map accountToToml))] := by
    simp [Users.names, Users.toEntries, List.lookup_append, lookup_presentEntry, List.lookup_cons]
  rw [Users.read?, fields?_valuesFirst (section_users u), hfields, Option.bind_eq_bind,
    Option.bind_some]
  dsimp only
  rw [orElse_some, orElse_some, hbackend, haccounts]
  simp [present?_string]

theorem Gateway.read?_toEntries (g : Gateway) :
    Gateway.read? (.table (valuesFirst g.toEntries)) = some g := by
  have hfields : Gateway.names.map (fun name => g.toEntries.lookup name) =
      [some (.boolean g.trustHeader), some (.string g.header)] := rfl
  rw [Gateway.read?, fields?_valuesFirst (section_gateway g), hfields]
  rfl

theorem Policy.read?_toEntries (p : Policy) :
    Policy.read? (.table (valuesFirst p.toEntries)) = some p := by
  have hfields : Policy.names.map (fun name => p.toEntries.lookup name) =
      [some (.boolean p.revealUnknownUsers)] := rfl
  rw [Policy.read?, fields?_valuesFirst (section_policy p), hfields]
  rfl

/-- The sections of a configuration, in the order that they are written. -/
def tables (c : Config) : List (String × List (String × Toml)) :=
  [("server", c.server.toEntries), ("token", c.tokens.toEntries), ("sessions", c.sessions.toEntries),
    ("users", c.users.toEntries), ("gateway", c.gateway.toEntries), ("policy", c.policy.toEntries)]

theorem sectioned_tables (c : Config) : Sectioned c.tables where
  bare := by simp only [tables, List.forall_mem_cons]; decide
  table := by
    simp [tables, section_server, section_tokens, section_sessions, section_users, section_gateway,
      section_policy]
  nodup := by simp only [tables, List.map_cons, List.map_nil]; decide

theorem ofText?_toText (c : Config) : ofText? c.toText = some c := by
  have hread := read?_writeSections (sectioned_tables c)
  have htext : c.toText = writeSections (c.tables.map fun t => (t.1, .table t.2)) := rfl
  have hfields : fields? Config.names
      (.table (c.tables.map fun t => (t.1, .table (valuesFirst t.2)))) =
      some (c.tables.map fun t => some (.table (valuesFirst t.2))) := rfl
  rw [ofText?, htext, hread, Option.bind_some, ofToml?, hfields, Option.bind_eq_bind,
    Option.bind_some, tables]
  simp only [List.map_cons, List.map_nil]
  rw [orElse_some, orElse_some, orElse_some, orElse_some, orElse_some, orElse_some,
    Server.read?_toEntries, Tokens.read?_toEntries, Sessions.read?_toEntries, Users.read?_toEntries,
    Gateway.read?_toEntries, Policy.read?_toEntries]
  rfl

end SessionGate.Config
