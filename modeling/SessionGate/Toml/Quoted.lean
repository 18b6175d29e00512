import SessionGate.Toml.Scalar

/-!
TOML strings in their four forms: basic ones with escapes and literal ones without, each on one line
or, between three quotes, on several.
-/

namespace SessionGate.Toml

/-- Characters that must not stand raw in a string or a comment. Tabs may. -/
def isForbidden (c : Char) : Bool := (c.toNat < 0x20 && c != '\t') || c.toNat == 0x7f

def hex? (digits : List Char) : Option Nat :=
  digits.foldlM (fun n c => (digitIn 16 c).map (16 * n + ·)) 0

def scalarValue? (n : Nat) : Option Char :=
  if n < 0xd800 ∨ (0xdfff < n ∧ n < 0x110000) then some (Char.ofNat n) else none

def shortEscape? : Char → Option Char
  | 'b' => some (Char.ofNat 8)
  | 't' => some '\t'
  | 'n' => some '\n'
  | 'f' => some (Char.ofNat 12)
  | 'r' => some '\r'
  | 'e' => some (Char.ofNat 27)
  | '"' => some '"'
  | '\\' => some '\\'
  | _ => none

def escape? : List Char → Option (Char × List Char)
  | [] => none
  | c :: rest =>
    let width := if c = 'x' then 2 else if c = 'u' then 4 else if c = 'U' then 8 else 0
    if width = 0 then (shortEscape? c).map (·, rest)
    else
      let digits := rest.take width
      if digits.length < width then none
      else ((hex? digits).bind scalarValue?).map (·, rest.drop width)

def newline? : List Char → Option (List Char)
  | '\n' :: rest => some rest
  | '\r' :: '\n' :: rest => some rest
  | _ => none

/-- After a backslash at the end of a line: blanks, a line end, and all blanks and line ends after. -/
def joinLine? (chars : List Char) : Option (List Char) :=
  match newline? (chars.dropWhile fun c => c == ' ' || c == '\t') with
  | some rest => some (rest.dropWhile fun c => c == ' ' || c == '\t' || c == '\n' || c == '\r')
  | none => none

/-- The rest of a string between single marks, `mark` closing it; text seen comes in reverse. -/
def oneLine? (mark : Char) (escapes : Bool) : Nat → List Char → List Char →
    Option (List Char × List Char)
  | 0, _, _ => none
  | _, _, [] => none
  | fuel + 1, seen, c :: rest =>
    if c = mark then some (seen.reverse, rest)
    else if c = '\\' ∧ escapes then do
      let (c, rest) ← escape? rest
      oneLine? mark escapes fuel (c :: seen) rest
    else if isForbidden c then none
    else oneLine? mark escapes fuel (c :: seen) rest

/-- The rest of a string between three marks. Up to two marks before the closing ones belong to the
string, and every line end counts as a line feed. -/
def manyLines? (mark : Char) (escapes : Bool) : Nat → List Char → List Char →
    Option (List Char × List Char)
  | 0, _, _ => none
  | _, _, [] => none
  | fuel + 1, seen, c :: rest =>
    if c = mark then
      let run := min 5 ((c :: rest).takeWhile (· == mark)).length
      if 3 ≤ run then
        some (seen.reverse ++ List.replicate (run - 3) mark, (c :: rest).drop run)
      else manyLines? mark escapes fuel (c :: seen) rest
    else if c = '\\' ∧ escapes then
      match joinLine? rest with
      | some rest => manyLines? mark escapes fuel seen rest
      | none => do
        let (c, rest) ← escape? rest
        manyLines? mark escapes fuel (c :: seen) rest
    else match newline? (c :: rest) with
      | some rest => manyLines? mark escapes fuel ('\n' :: seen) rest
      | none =>
        if isForbidden c then none else manyLines? mark escapes fuel (c :: seen) rest

def string? (chars : List Char) : Option (String × List Char) :=
  match chars with
  | a :: b :: c :: rest =>
    if a = b ∧ b = c then
      let rest := (newline? rest).getD rest
      (manyLines? a (a = '"') (rest.length + 1) [] rest).map fun (s, r) => (String.ofList s, r)
    else
      (oneLine? a (a = '"') (chars.length + 1) [] (b :: c :: rest)).map
        fun (s, r) => (String.ofList s, r)
  | a :: rest =>
    (oneLine? a (a = '"') (chars.length + 1) [] rest).map fun (s, r) => (String.ofList s, r)
  | [] => none

end SessionGate.Toml
