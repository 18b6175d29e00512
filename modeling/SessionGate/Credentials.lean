import SessionGate.Json.Magnitude
import SessionGate.Json.Reader

/-!
Credentials, read from the body of a login. The body is read from left to right and its first fault
counts: text that is no JSON, or JSON that is no credentials.
-/

namespace SessionGate

structure Credentials where
  username : String
  password : String
deriving DecidableEq

namespace Credentials

inductive Fault
  | notJson
  | notCredentials
deriving DecidableEq, Repr

open Json in
/-- A value in the place of a text, and what follows it. A container is wrong as soon as it begins;
any other value is read first. -/
def readText (bytes : List UInt8) : Except Fault (String × List UInt8) :=
  match skipBlanks bytes with
  | 0x22 :: rest => match readLiteral? rest with
    | some (some text, rest) => .ok (text, rest)
    | _ => .error .notJson
  | 0x5b :: _ => .error .notCredentials
  | 0x7b :: _ => .error .notCredentials
  | bytes => match readValue? (fuelFor bytes) bytes with
    | some (v, _) => .error (if v.isFinite then .notCredentials else .notJson)
    | none => .error .notJson

structure Partial where
  username : Option String
  password : Option String

def Partial.complete (p : Partial) : Except Fault Credentials :=
  match p.username, p.password with
  | some username, some password => .ok { username, password }
  | _, _ => .error .notCredentials

open Json in
def afterColon (bytes : List UInt8) : Except Fault (List UInt8) :=
  match skipBlanks bytes with
  | 0x3a :: rest => .ok rest
  | _ => .error .notJson

open Json in
/-- Members from a name on, to the closing brace. -/
def readMembers : Nat → Partial → List UInt8 → Except Fault (Credentials × List UInt8)
  | 0, _, _ => .error .notJson
  | fuel + 1, p, bytes => do
    let 0x22 :: rest := skipBlanks bytes | throw .notJson
    let some (some name, rest) := readLiteral? rest | throw .notJson
    let (p, rest) ←
      if name = "username" then do
        if p.username.isSome then throw .notCredentials
        let (text, rest) ← readText (← afterColon rest)
        pure ({ p with username := some text }, rest)
      else if name = "password" then do
        if p.password.isSome then throw .notCredentials
        let (text, rest) ← readText (← afterColon rest)
        pure ({ p with password := some text }, rest)
      else do
        let rest ← afterColon rest
        let some (_, rest) := readValue? (fuelFor rest) rest | throw .notJson
        pure (p, rest)
    match skipBlanks rest with
    | 0x2c :: rest => readMembers fuel p rest
    | 0x7d :: rest => return (← p.complete, rest)
    | _ => throw .notJson

open Json in
def readObject (bytes : List UInt8) : Except Fault (Credentials × List UInt8) :=
  match skipBlanks bytes with
  | 0x7d :: _ => .error .notCredentials
  | bytes => readMembers (bytes.length + 1) ⟨none, none⟩ bytes

open Json in
/-- Exactly a username and a password, in this order. -/
def readArray (bytes : List UInt8) : Except Fault (Credentials × List UInt8) := do
  let 0x5d :: _ := skipBlanks bytes | do
    let (username, rest) ← readText bytes
    match skipBlanks rest with
    | 0x5d :: _ => throw .notCredentials
    | 0x2c :: rest => do
      let 0x5d :: _ := skipBlanks rest | do
        let (password, rest) ← readText rest
        match skipBlanks rest with
        | 0x5d :: rest => return ({ username, password }, rest)
        | _ => throw .notJson
      throw .notJson
    | _ => throw .notJson
  throw .notCredentials

open Json in
def ofBytes (bytes : List UInt8) : Except Fault Credentials := do
  let (c, rest) ← match skipBlanks bytes with
    | 0x7b :: rest => readObject rest
    | 0x5b :: rest => readArray rest
    | bytes => match readValue? (fuelFor bytes) bytes with
      | some (v, _) =>
        throw (if v.isFinite && v.isText then .notCredentials else .notJson)
      | none => throw .notJson
  if skipBlanks rest = [] then return c else throw .notJson

end Credentials

end SessionGate
