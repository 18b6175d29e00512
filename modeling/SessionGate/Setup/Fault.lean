import SessionGate.Host.Files
import SessionGate.Refusal

/-!
What can go wrong before a service runs. A file, key or configuration that cannot be read is a fault of
its own kind, whose text says less than its reader does: the place and the reason within it are left out.
-/

namespace SessionGate.Setup

inductive ConfigFault
  | shortSecret
  | noKeyId
  | noPrivateKeyPath
  | duplicateKeyId (id : String)
  | noPostgres
  | badGatewayHeader
deriving DecidableEq, Repr

def ConfigFault.message : ConfigFault → String
  | shortSecret => "token secret must be at least 32 bytes"
  | noKeyId => "asymmetric signing requires a key_id"
  | noPrivateKeyPath => "asymmetric signing requires private_key_path"
  | duplicateKeyId id => "duplicate key id '" ++ id ++ "'"
  | noPostgres => "users.postgres is required for the postgres backend"
  | badGatewayHeader => "invalid gateway header name: invalid HTTP header name"

inductive KeyFault
  | privateKey
  | publicKey
  | unusable
  | notGenerated
deriving DecidableEq, Repr

def KeyFault.message : KeyFault → String
  | privateKey => "failed to parse RSA private key: no key of a known form"
  | publicKey => "failed to parse RSA public key: no key of a known form"
  | unusable => "unusable signing key: not the first armour of its text"
  | notGenerated => "failed to generate RSA key: no prime found"

inductive Fault
  | config (fault : ConfigFault)
  | key (fault : KeyFault)
  | file (fault : Host.FileFault)
  | noConfig
  | badConfig
  | refused (refusal : Refusal)
  /-- A span of time that no clock can add. -/
  | pastCalendar
deriving DecidableEq, Repr

def Fault.message : Fault → String
  | config fault => "Configuration error: " ++ fault.message
  | key fault => "Key material error: " ++ fault.message
  | file fault => "IO error: " ++ fault.message
  | noConfig => "Config file not found. Run 'authgate init' first."
  | badConfig => "TOML parse error: no configuration"
  | refused refusal => refusal.message
  | pastCalendar => "time span out of range"

end SessionGate.Setup
