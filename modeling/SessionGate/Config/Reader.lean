import SessionGate.Config.Basic
import SessionGate.Toml.Reader

/-!
Reading a configuration from the table of a TOML document.
-/

namespace SessionGate.Config

/-- The fields of a record, from a table by name or from an array in order; `none` where missing. -/
def fields? (names : List String) : Toml → Option (List (Option Toml))
  | .table entries => some (names.map fun name => entries.lookup name)
  | .array items => some ((List.range names.length).map fun i => items[i]?)
  | _ => none

def string? : Toml → Option String
  | .string text => some text
  | _ => none

def boolean? : Toml → Option Bool
  | .boolean b => some b
  | _ => none

def natBelow? (bound : Nat) : Toml → Option Nat
  | .integer n => if 0 ≤ n ∧ n < bound then some n.toNat else none
  | _ => none

def int64? : Toml → Option Int64
  | .integer n =>
    if -0x8000000000000000 ≤ n ∧ n < 0x8000000000000000 then some (Int64.ofInt n) else none
  | _ => none

/-- One of a choice of words, alone or as the only key over nothing. -/
def word? : Toml → Option String
  | .string text => some text
  | .table [(key, .table [])] => some key
  | .table [(key, .array [])] => some key
  | _ => none

def list? (read : Toml → Option α) : Toml → Option (List α)
  | .array items => items.mapM read
  | _ => none

def orElse (fallback : α) (read : Toml → Option α) : Option Toml → Option α
  | none => some fallback
  | some v => read v

def present? (read : Toml → Option α) : Option Toml → Option (Option α)
  | none => some none
  | some v => (read v).map some

def Server.names : List String := ["host", "port", "cors_origins"]

def Server.read? (v : Toml) : Option Server := do
  let [host, port, origins] ← fields? names v | none
  let fallback : Server := {}
  some { host := ← orElse fallback.host string? host
         port := UInt16.ofNat (← orElse fallback.port.toNat (natBelow? 0x10000) port)
         corsOrigins := ← orElse fallback.corsOrigins (list? string?) origins }

def RetiredKey.names : List String := ["key_id", "public_key_path"]

def RetiredKey.read? (v : Toml) : Option RetiredKey := do
  let [some id, some path] ← fields? names v | none
  some { id := ← string? id, path := ← string? path }

def Tokens.names : List String :=
  ["mode", "secret", "private_key_path", "key_id", "retired_keys", "issuer", "audience",
    "leeway_seconds"]

def Tokens.read? (v : Toml) : Option Tokens := do
  let [mode, secret, path, keyId, retired, issuer, audience, leeway] ← fields? names v | none
  let fallback : Tokens := {}
  some { mode := ← orElse fallback.mode (fun v => (word? v).bind SigningMode.ofText?) mode
         secret := ← present? string? secret
         privateKeyPath := ← present? string? path
         keyId := ← present? string? keyId
         retiredKeys := ← orElse fallback.retiredKeys (list? RetiredKey.read?) retired
         issuer := ← present? string? issuer
         audience := ← present? string? audience
         leewaySeconds :=
           UInt64.ofNat (← orElse fallback.leewaySeconds.toNat (natBelow? 0x10000000000000000) leeway) }

def Sessions.names : List String := ["backend", "redis_url", "accept_legacy_sessions"]

def Sessions.read? (v : Toml) : Option Sessions := do
  let [backend, url, legacy] ← fields? names v | none
  let fallback : Sessions := {}
  some { backend :=
           ← orElse fallback.backend (fun v => (word? v).bind SessionBackend.ofText?) backend
         redisUrl := ← orElse fallback.redisUrl string? url
         acceptLegacy := ← orElse fallback.acceptLegacy boolean? legacy }

def accountNames : List String :=
  ["id", "name", "email", "password_hash", "role", "subscription_status"]

def account? (v : Toml) : Option Account := do
  let [some id, some name, some email, some hash, some role, subscription] ←
    fields? accountNames v | none
  some { id := ← int64? id
         name := ← string? name
         email := ← string? email
         passwordHash := ← string? hash
         role := ← (natBelow? 256 role).bind Role.ofNat?
         subscription :=
           ← orElse .inactive (fun v => (word? v).bind Subscription.ofText?) subscription }

def Users.names : List String := ["backend", "postgres", "accounts"]

def Users.read? (v : Toml) : Option Users := do
  let [backend, postgres, accounts] ← fields? names v | none
  let fallback : Users := {}
  some { backend := ← orElse fallback.backend (fun v => (word? v).bind UserBackend.ofText?) backend
         postgres := ← present? string? postgres
         accounts := ← orElse fallback.accounts (list? account?) accounts }

def Gateway.names : List String := ["trust_userinfo_header", "userinfo_header"]

def Gateway.read? (v : Toml) : Option Gateway := do
  let [trust, header] ← fields? names v | none
  let fallback : Gateway := {}
  some { trustHeader := ← orElse fallback.trustHeader boolean? trust
         header := ← orElse fallback.header string? header }

def Policy.names : List String := ["reveal_unknown_users"]

def Policy.read? (v : Toml) : Option Policy := do
  let [reveal] ← fields? names v | none
  let fallback : Policy := {}
  some { revealUnknownUsers := ← orElse fallback.revealUnknownUsers boolean? reveal }

def names : List String := ["server", "token", "sessions", "users", "gateway", "policy"]

def ofToml? (v : Toml) : Option Config := do
  let [server, tokens, sessions, users, gateway, policy] ← fields? names v | none
  some { server := ← orElse {} Server.read? server
         tokens := ← orElse {} Tokens.read? tokens
         sessions := ← orElse {} Sessions.read? sessions
         users := ← orElse {} Users.read? users
         gateway := ← orElse {} Gateway.read? gateway
         policy := ← orElse {} Policy.read? policy }

def ofText? (text : String) : Option Config :=
  (Toml.read? text).bind fun entries => ofToml? (.table entries)

end SessionGate.Config
