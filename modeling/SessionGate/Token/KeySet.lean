import SessionGate.Encoding.Base64
import SessionGate.Json.Fields
import SessionGate.Json.Reader
import SessionGate.Json.Writer
import SessionGate.Rsa.Key

/-!
The published set of verification keys. An entry names a key and spells out its modulus and exponent,
and is all that is needed to check signatures under that name.
-/

namespace SessionGate.Token

structure PublishedKey where
  kind : String
  id : String
  algorithm : String
  usage : String
  modulus : String
  exponent : String
deriving DecidableEq, Repr

namespace PublishedKey

def ofKey (id : String) (key : Rsa.PublicKey) : PublishedKey where
  kind := "RSA"
  id := id
  algorithm := "RS256"
  usage := "sig"
  modulus := Base64.encode Base64.url (Der.bytesOfNat key.modulus)
  exponent := Base64.encode Base64.url (Der.bytesOfNat key.exponent)

def key? (k : PublishedKey) : Option Rsa.PublicKey := do
  some { modulus := Der.natOfBytes (← Base64.decode? Base64.url k.modulus)
         exponent := Der.natOfBytes (← Base64.decode? Base64.url k.exponent) }

def fieldNames : List (List String) := [["kty"], ["kid"], ["alg"], ["use"], ["n"], ["e"]]

def toJson (k : PublishedKey) : Json :=
  .object [Json.member "kty" (.text k.kind), Json.member "kid" (.text k.id),
    Json.member "alg" (.text k.algorithm), Json.member "use" (.text k.usage),
    Json.member "n" (.text k.modulus), Json.member "e" (.text k.exponent)]

def ofJson? (v : Json) : Option PublishedKey :=
  match v.fields? fieldNames with
  | some [some kind, some id, some algorithm, some usage, some modulus, some exponent] => do
    some { kind := ← kind.text?, id := ← id.text?, algorithm := ← algorithm.text?
           usage := ← usage.text?, modulus := ← modulus.text?, exponent := ← exponent.text? }
  | _ => none

end PublishedKey

structure KeySet where
  keys : List PublishedKey
deriving DecidableEq, Repr

namespace KeySet

def find? (s : KeySet) (id : String) : Option PublishedKey := s.keys.find? (·.id = id)

def toJson (s : KeySet) : Json :=
  .object [Json.member "keys" (.array (s.keys.map PublishedKey.toJson))]

def ofJson? (v : Json) : Option KeySet :=
  match v.fields? [["keys"]] with
  | some [some keys] => (keys.list? PublishedKey.ofJson?).map KeySet.mk
  | _ => none

end KeySet

end SessionGate.Token
