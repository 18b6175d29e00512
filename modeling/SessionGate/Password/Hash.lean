import SessionGate.Encoding.Base64
import SessionGate.Password.Blowfish
import SessionGate.Text.Decimal
import SessionGate.Text.Pieces

/-!
Stored password hashes, written `$2b$12$` and then a salt of twenty-two and a digest of thirty-one
characters. A password is checked by digesting it again under the stored cost and salt.
-/

namespace SessionGate.Password

/-- Big-endian words of a text read in a circle, from a list of bytes without end. -/
def circleWords (text : List UInt8) (count : Nat) : List UInt32 :=
  words (List.replicate (4 * count) text).flatten count
where
  words : List UInt8 → Nat → List UInt32
    | b0 :: b1 :: b2 :: b3 :: rest, n + 1 =>
      ((b0.toUInt32 <<< 24) ||| (b1.toUInt32 <<< 16) ||| (b2.toUInt32 <<< 8) ||| b3.toUInt32)
        :: words rest n
    | _, _ => []

def keyWords (text : List UInt8) : Vector UInt32 18 :=
  let ws := circleWords text 18
  Vector.ofFn fun i => ws[i]?.getD 0

def saltWords (salt : List UInt8) : Blowfish.Salt :=
  let ws := circleWords salt 4
  ⟨ws[0]?.getD 0, ws[1]?.getD 0, ws[2]?.getD 0, ws[3]?.getD 0⟩

/-- Bytes of a password that a digest reads: at most seventy-two, the closing zero counted. -/
def keyBytes (password : String) : List UInt8 :=
  (password.toUTF8.toList ++ [0]).take 72

/-- The text that is encrypted to make a digest. -/
def plaintext : List Blowfish.Block :=
  match circleWords "OrpheanBeholderScryDoubt".toUTF8.toList 6 with
  | [w0, w1, w2, w3, w4, w5] => [⟨w0, w1⟩, ⟨w2, w3⟩, ⟨w4, w5⟩]
  | _ => []

def stirred (cost : Nat) (salt : List UInt8) (password : String) : Blowfish.State :=
  let key := keyWords (keyBytes password)
  let saltKey := keyWords salt
  Nat.repeat (fun s => (s.expand .zero key).expand .zero saltKey) (1 <<< cost)
    (Blowfish.initial.expand (saltWords salt) key)

/-- The digest of a password, twenty-three bytes. -/
def digest (cost : Nat) (salt : List UInt8) (password : String) : List UInt8 :=
  let s := stirred cost salt password
  let blocks := plaintext.map fun b => Nat.repeat s.encrypt 64 b
  let words := blocks.flatMap fun b => [b.left, b.right]
  (words.flatMap fun w : UInt32 =>
    [(w >>> 24).toUInt8, (w >>> 16).toUInt8, (w >>> 8).toUInt8, w.toUInt8]).take 23

structure Hash where
  cost : Nat
  salt : List UInt8
  digest : List UInt8
deriving DecidableEq, Repr

def leastCost : Nat := 4

def greatestCost : Nat := 31

def newCost : Nat := 12

def versions : List String := ["2a", "2b", "2x", "2y"]

def cost? (text : String) : Option Nat :=
  (Text.readNatUpTo greatestCost text).filter (leastCost ≤ ·)

/-- Reads a stored hash: a version, a cost and fifty-three characters, in pieces set off by dollar
signs. Empty pieces do not count. -/
def Hash.ofString? (text : String) : Option Hash :=
  match (Text.pieces '$' text.toList).filter (· ≠ []) with
  | [version, cost, tail] => do
    if String.ofList version ∉ versions ∨ tail.length ≠ 53 then none
    let cost ← cost? (String.ofList cost)
    let salt ← Base64.decodeChars? Base64.crypt (tail.take 22)
    let digest ← Base64.decodeChars? Base64.crypt (tail.drop 22)
    some { cost, salt, digest }
  | _ => none

def Hash.toString (h : Hash) : String :=
  let cost := if h.cost < 10 then "0" ++ Nat.repr h.cost else Nat.repr h.cost
  "$2b$" ++ cost ++ "$" ++ Base64.encode Base64.crypt h.salt
    ++ Base64.encode Base64.crypt h.digest

/-- A password opens a stored hash. A malformed hash is opened by none. -/
def opens (password hash : String) : Bool :=
  match Hash.ofString? hash with
  | some h => digest h.cost h.salt password = h.digest
  | none => false

/-- The hash stored for a new password under a drawn salt. -/
def hash (password : String) (salt : List UInt8) : String :=
  Hash.toString { cost := newCost, salt, digest := digest newCost salt password }

end SessionGate.Password
