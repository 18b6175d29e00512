import SessionGate.Config.Basic
import SessionGate.Toml.Writer

/-!
Writing a configuration as a TOML document. Fields that hold nothing are left out.
-/

namespace SessionGate.Config

def presentEntry (key : String) (text : Option String) : List (String × Toml) :=
  (text.map fun text => (key, Toml.string text)).toList

def strings (texts : List String) : Toml := .array (texts.map .string)

def RetiredKey.toToml (k : RetiredKey) : Toml :=
  .table [("key_id", .string k.id), ("public_key_path", .string k.path)]

def accountToToml (a : Account) : Toml :=
  .table [("id", .integer a.id.toInt), ("name", .string a.name), ("email", .string a.email),
    ("password_hash", .string a.passwordHash), ("role", .integer a.role.number),
    ("subscription_status", .string a.subscription.toText)]

def Server.toEntries (s : Server) : List (String × Toml) :=
  [("host", .string s.host), ("port", .integer s.port.toNat),
    ("cors_origins", strings s.corsOrigins)]

def Tokens.toEntries (t : Tokens) : List (String × Toml) :=
  [("mode", .string t.mode.toText)] ++ presentEntry "secret" t.secret
    ++ presentEntry "private_key_path" t.privateKeyPath ++ presentEntry "key_id" t.keyId
    ++ [("retired_keys", .array (t.retiredKeys.map RetiredKey.toToml))]
    ++ presentEntry "issuer" t.issuer ++ presentEntry "audience" t.audience
    ++ [("leeway_seconds", .integer t.leewaySeconds.toNat)]

def Sessions.toEntries (s : Sessions) : List (String × Toml) :=
  [("backend", .string s.backend.toText), ("redis_url", .string s.redisUrl),
    ("accept_legacy_sessions", .boolean s.acceptLegacy)]

def Users.toEntries (u : Users) : List (String × Toml) :=
  [("backend", .string u.backend.toText)] ++ presentEntry "postgres" u.postgres
    ++ [("accounts", .array (u.accounts.map accountToToml))]

def Gateway.toEntries (g : Gateway) : List (String × Toml) :=
  [("trust_userinfo_header", .boolean g.trustHeader), ("userinfo_header", .string g.header)]

def Policy.toEntries (p : Policy) : List (String × Toml) :=
  [("reveal_unknown_users", .boolean p.revealUnknownUsers)]

def toEntries (c : Config) : List (String × Toml) :=
  [("server", .table c.server.toEntries), ("token", .table c.tokens.toEntries),
    ("sessions", .table c.sessions.toEntries), ("users", .table c.users.toEntries),
    ("gateway", .table c.gateway.toEntries), ("policy", .table c.policy.toEntries)]

def toText (c : Config) : String := Toml.writeSections c.toEntries

end SessionGate.Config
