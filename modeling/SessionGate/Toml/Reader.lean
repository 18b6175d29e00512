import SessionGate.Toml.Quoted
import SessionGate.Toml.Tree

/-!
Reading TOML documents: lines that assign a value to a key, declare a table, or open one more table
of an array. Values may spread over lines inside brackets.
-/

namespace SessionGate.Toml

def skipBlanks (chars : List Char) : List Char :=
  chars.dropWhile fun c => c == ' ' || c == '\t'

/-- What follows a comment, its line end included in what follows. -/
def afterComment? (chars : List Char) : Option (List Char) :=
  let text := chars.takeWhile (!isForbidden ·)
  let rest := chars.drop text.length
  if rest = [] ∨ (newline? rest).isSome then some rest else none

def skipSpace? : Nat → List Char → Option (List Char)
  | 0, _ => none
  | fuel + 1, chars =>
    match skipBlanks chars with
    | '#' :: rest => (afterComment? rest).bind (skipSpace? fuel)
    | chars => match newline? chars with
      | some rest => skipSpace? fuel rest
      | none => some chars

/-- The end of a statement: blanks, a comment, and a line end or the end of the document. -/
def afterStatement? (chars : List Char) : Option (List Char) := do
  let rest ← match skipBlanks chars with
    | '#' :: rest => afterComment? rest
    | chars => some chars
  if rest = [] then some [] else newline? rest

def isBareChar (c : Char) : Bool := c.isAlphanum || c == '_' || c == '-'

def keyPart? (chars : List Char) : Option (String × List Char) :=
  match chars with
  | '"' :: rest =>
    (oneLine? '"' true (chars.length + 1) [] rest).map fun (s, r) => (String.ofList s, r)
  | '\'' :: rest =>
    (oneLine? '\'' false (chars.length + 1) [] rest).map fun (s, r) => (String.ofList s, r)
  | chars =>
    let bare := chars.takeWhile isBareChar
    if bare = [] then none else some (String.ofList bare, chars.drop bare.length)

/-- Parts with full stops between them; blanks around each do not count. -/
def key? : Nat → List Char → Option (List String × List Char)
  | 0, _ => none
  | fuel + 1, chars => do
    let (part, rest) ← keyPart? (skipBlanks chars)
    match skipBlanks rest with
    | '.' :: rest => do
      let (parts, rest) ← key? fuel rest
      some (part :: parts, rest)
    | rest => some ([part], rest)

def isWordChar (c : Char) : Bool :=
  c.isAlphanum || c == '_' || c == '-' || c == '+' || c == '.' || c == ':'

/-- A word; a date and a time of day may have one blank between them. -/
def word (chars : List Char) : List Char × List Char :=
  let first := chars.takeWhile isWordChar
  let rest := chars.drop first.length
  match rest with
  | ' ' :: c :: more =>
    if date? first = some [] ∧ c.isDigit then
      let second := (c :: more).takeWhile isWordChar
      (first ++ ' ' :: second, (c :: more).drop second.length)
    else (first, rest)
  | _ => (first, rest)

mutual

def value? : Nat → List Char → Option (Toml × List Char)
  | 0, _ => none
  | fuel + 1, chars =>
    match chars with
    | '"' :: _ => (string? chars).map fun (s, rest) => (.string s, rest)
    | '\'' :: _ => (string? chars).map fun (s, rest) => (.string s, rest)
    | '[' :: rest => (items? fuel rest).map fun (items, rest) => (.array items, rest)
    | '\x7b' :: rest => (members? fuel [] rest).map fun (t, rest) => (.table (entriesToToml t), rest)
    | chars =>
      let (w, rest) := word chars
      (scalar? w).map (·, rest)

def items? : Nat → List Char → Option (List Toml × List Char)
  | 0, _ => none
  | fuel + 1, chars => do
    match ← skipSpace? (chars.length + 1) chars with
    | ']' :: rest => some ([], rest)
    | chars => do
      let (v, rest) ← value? fuel chars
      match ← skipSpace? (rest.length + 1) rest with
      | ',' :: rest => do
        let (items, rest) ← items? fuel rest
        some (v :: items, rest)
      | ']' :: rest => some ([v], rest)
      | _ => none

/-- Members to the closing brace, added to those already read. -/
def members? : Nat → Entries → List Char → Option (Entries × List Char)
  | 0, _, _ => none
  | fuel + 1, entries, chars => do
    match ← skipSpace? (chars.length + 1) chars with
    | '\x7d' :: rest => some (entries, rest)
    | chars => do
      let (path, rest) ← key? (chars.length + 1) chars
      let '=' :: rest := skipBlanks rest | none
      let (v, rest) ← value? fuel (skipBlanks rest)
      let entries ← assign [] path v entries
      match ← skipSpace? (rest.length + 1) rest with
      | ',' :: rest => members? fuel entries rest
      | '\x7d' :: rest => some (entries, rest)
      | _ => none

end

/-- A document so far: its root, and the table that statements now go to. -/
structure Document where
  root : Entries
  here : List String

def statement? (d : Document) (chars : List Char) : Option (Document × List Char) :=
  let fuel := chars.length + 1
  match chars with
  | '[' :: '[' :: rest => do
    let (path, rest) ← key? fuel rest
    let ']' :: ']' :: rest := rest | none
    let rest ← afterStatement? rest
    some ({ root := ← extendAt path d.root, here := path }, rest)
  | '[' :: rest => do
    let (path, rest) ← key? fuel rest
    let ']' :: rest := rest | none
    let rest ← afterStatement? rest
    some ({ root := ← declareAt path d.root, here := path }, rest)
  | chars => do
    let (path, rest) ← key? fuel chars
    let '=' :: rest := rest | none
    let (v, rest) ← value? fuel (skipBlanks rest)
    let rest ← afterStatement? rest
    some ({ d with root := ← assign d.here path v d.root }, rest)

def statements? : Nat → Document → List Char → Option Document
  | 0, _, _ => none
  | fuel + 1, d, chars => do
    match ← skipSpace? (chars.length + 1) chars with
    | [] => some d
    | chars => do
      let (d, rest) ← statement? d chars
      statements? fuel d rest

/-- The table of a document. A byte order mark in front does not count. -/
def read? (text : String) : Option (List (String × Toml)) :=
  let chars := match text.toList with
    | '\ufeff' :: rest => rest
    | chars => chars
  (statements? (chars.length + 2) { root := [], here := [] } chars).map
    (entriesToToml ·.root)

end SessionGate.Toml
