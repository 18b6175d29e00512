import SessionGate.Config.Basic
import SessionGate.Host.System
import SessionGate.Setup.Fault
import SessionGate.Token.Authority

/-!
Building an authority: from a secret, from armoured keys, or from the token section of a
configuration, whose key files are read on the way.
-/

namespace SessionGate.Setup

open Token

def sharedKeys (secret : List UInt8) : Except Fault Keys :=
  if secret.length < leastSecretLength then .error (.config .shortSecret)
  else .ok (.shared secret)

/-- Adds retired keys to those published already. No id comes twice. -/
def publish (published : List PublishedKey) : List (String × String) →
    Except Fault (List PublishedKey)
  | [] => .ok published
  | (id, pem) :: rest =>
    if published.any (·.id = id) then .error (.config (.duplicateKeyId id))
    else match Rsa.PublicKey.ofPem? pem with
      | none => .error (.key .publicKey)
      | some key => publish (published ++ [PublishedKey.ofKey id key]) rest

/-- Keys for signing with a private key, and for checking with it and with retired keys. -/
def asymmetricKeys (pem id : String) (retired : List (String × String)) : Except Fault Keys := do
  if id = "" then throw (.config .noKeyId)
  match Rsa.PrivateKey.ofPem? pem with
  | none => throw (.key .privateKey)
  | some key =>
    if Pem.hasEarlierOpening pem then throw (.key .unusable)
    let published ← publish [PublishedKey.ofKey id key.toPublic] retired
    return .asymmetric id key { keys := published }

/-- A clock skew in seconds, if it can be told. -/
def skew (seconds : Int) : Except Fault Skew :=
  if told : seconds.natAbs ≤ longestSkew then .ok { seconds, told } else .error .pastCalendar

def authority (keys : Keys) (issuer audience : Option String) (leeway : Int) :
    Except Fault Authority := do
  let a : Authority := { keys, issuer := none, audience := none, skew := ← skew leeway }
  return a.withNames issuer audience

abbrev Task α := ExceptT Fault (Program Host.Request) α

def fileText (path : String) : Task String := ExceptT.mk do
  return (← Program.perform (.read path)).mapError .file

def keysOf (t : Config.Tokens) : Task Keys :=
  match t.mode with
  | .sharedSecret => ExceptT.mk (pure (sharedKeys (t.secret.getD "").toUTF8.toList))
  | .asymmetric => do
    let some path := t.privateKeyPath | throw (.config .noPrivateKeyPath)
    let pem ← fileText path
    let retired ← t.retiredKeys.mapM fun k => do return (k.id, ← fileText k.path)
    ExceptT.mk (pure (asymmetricKeys pem (t.keyId.getD "") retired))

/-- The skew of a configuration is read as a signed number of sixty-four bits. -/
def authorityOf (t : Config.Tokens) : Task Authority := do
  let keys ← keysOf t
  ExceptT.mk (pure (authority keys t.issuer t.audience t.leewaySeconds.toInt64.toInt))

end SessionGate.Setup
