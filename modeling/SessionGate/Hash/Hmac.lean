import SessionGate.Hash.Sha256

/-!
HMAC with SHA-256: a keyed digest. Keys longer than a block are digested first, shorter ones are
filled with zeros.
-/

namespace SessionGate.Hmac

def blockKey (key : List UInt8) : List UInt8 :=
  let key := if key.length > 64 then Sha256.digest key else key
  key ++ List.replicate (64 - key.length) 0

def code (key message : List UInt8) : List UInt8 :=
  let key := blockKey key
  Sha256.digest (key.map (· ^^^ 0x5c) ++ Sha256.digest (key.map (· ^^^ 0x36) ++ message))

@[simp] theorem length_code (key message : List UInt8) : (code key message).length = 32 := rfl

end SessionGate.Hmac
