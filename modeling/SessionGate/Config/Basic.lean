import SessionGate.Account.Basic
import SessionGate.Toml.Basic

/-!
The configuration of a deployment: its sections, their defaults, and how each is read from a TOML
value. A section may be written as a table or as an array of its fields in order; fields that are not
known do not matter, and all but those of accounts and retired keys have defaults.
-/

namespace SessionGate.Config

structure Server where
  host : String := "0.0.0.0"
  port : UInt16 := 8080
  corsOrigins : List String := []
deriving DecidableEq, Repr

inductive SigningMode
  | sharedSecret
  | asymmetric
deriving DecidableEq, Repr

structure RetiredKey where
  id : String
  path : String
deriving DecidableEq, Repr

structure Tokens where
  mode : SigningMode := .sharedSecret
  secret : Option String := none
  privateKeyPath : Option String := none
  keyId : Option String := none
  retiredKeys : List RetiredKey := []
  issuer : Option String := none
  audience : Option String := none
  leewaySeconds : UInt64 := 0
deriving DecidableEq, Repr

inductive SessionBackend
  | memory
  | redis
deriving DecidableEq, Repr

structure Sessions where
  backend : SessionBackend := .memory
  redisUrl : String := "redis://127.0.0.1:6379"
  acceptLegacy : Bool := true
deriving DecidableEq, Repr

inductive UserBackend
  | static
  | postgres
deriving DecidableEq, Repr

structure Users where
  backend : UserBackend := .static
  postgres : Option String := none
  accounts : List Account := []
deriving DecidableEq

structure Gateway where
  trustHeader : Bool := false
  header : String := "X-Apigateway-Api-Userinfo"
deriving DecidableEq, Repr

structure Policy where
  revealUnknownUsers : Bool := false
deriving DecidableEq, Repr

end SessionGate.Config

namespace SessionGate

structure Config where
  server : Config.Server := {}
  tokens : Config.Tokens := {}
  sessions : Config.Sessions := {}
  users : Config.Users := {}
  gateway : Config.Gateway := {}
  policy : Config.Policy := {}
deriving DecidableEq

namespace Config

def SigningMode.toText : SigningMode → String
  | sharedSecret => "shared_secret"
  | asymmetric => "asymmetric"

def SigningMode.ofText? (text : String) : Option SigningMode :=
  if text = "shared_secret" then some sharedSecret
  else if text = "asymmetric" then some asymmetric
  else none

def SessionBackend.toText : SessionBackend → String
  | memory => "memory"
  | redis => "redis"

def SessionBackend.ofText? (text : String) : Option SessionBackend :=
  if text = "memory" then some memory else if text = "redis" then some redis else none

def UserBackend.toText : UserBackend → String
  | static => "static"
  | postgres => "postgres"

def UserBackend.ofText? (text : String) : Option UserBackend :=
  if text = "static" then some static else if text = "postgres" then some postgres else none

end Config

end SessionGate
