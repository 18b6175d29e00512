import SessionGate.Json.Writer
import SessionGate.Toml.Basic

/-!
Writing TOML documents. A string takes the plainest of the four forms that can hold it; a table writes
its own values first and then its tables, each under a header and after an empty line.
-/

namespace SessionGate.Toml

def longestRun (c : Char) (chars : List Char) : Nat :=
  (chars.foldl (fun (longest, run) d =>
    if d = c then (max longest (run + 1), run + 1) else (longest, 0)) (0, 0)).1

inductive Form
  | basic
  | literal
  | basicLines
  | literalLines
deriving DecidableEq, Repr

def needsEscape (c : Char) : Bool :=
  (c.toNat < 0x20 && c != '\t' && c != '\n') || c.toNat == 0x7f

def formOf (chars : List Char) : Form :=
  let codes := chars.any needsEscape
  let backslash := chars.contains '\\'
  let lines := chars.contains '\n'
  let quotes := longestRun '"' chars
  let ticks := longestRun '\'' chars
  if !codes && !backslash && quotes == 0 && !lines then .basic
  else if !codes && ticks == 0 && !lines then .literal
  else if !codes && !backslash && quotes ≤ 2 then .basicLines
  else if !codes && ticks ≤ 2 then .literalLines
  else if lines then .basicLines
  else .basic

def upperHex (n : Nat) : Char := (Json.hexDigit n).toUpper

/-- Characters of a basic string. So many quotes may stand in a row unescaped; `run` of them have
just been written. -/
def basicChars (lines : Bool) (quotes : Nat) : Nat → List Char → List Char
  | _, [] => []
  | run, c :: rest =>
    if c = '"' then
      if run < quotes then '"' :: basicChars lines quotes (run + 1) rest
      else '\\' :: '"' :: basicChars lines quotes 0 rest
    else if c = '\\' then '\\' :: '\\' :: basicChars lines quotes 0 rest
    else if c = '\n' then
      (if lines then ['\n'] else ['\\', 'n']) ++ basicChars lines quotes 0 rest
    else if c = '\t' then '\\' :: 't' :: basicChars lines quotes 0 rest
    else if c = '\r' then '\\' :: 'r' :: basicChars lines quotes 0 rest
    else if c.toNat = 8 then '\\' :: 'b' :: basicChars lines quotes 0 rest
    else if c.toNat = 12 then '\\' :: 'f' :: basicChars lines quotes 0 rest
    else if c.toNat < 0x20 ∨ c.toNat = 0x7f then
      ['\\', 'u', '0', '0', upperHex (c.toNat / 16), upperHex (c.toNat % 16)]
        ++ basicChars lines quotes 0 rest
    else c :: basicChars lines quotes 0 rest

def stringChars (chars : List Char) : List Char :=
  let start := if chars.contains '\n' then ['\n'] else []
  let quotes := ['"', '"', '"']
  let ticks := ['\'', '\'', '\'']
  match formOf chars with
  | .basic => '"' :: basicChars false 0 0 chars ++ ['"']
  | .literal => '\'' :: chars ++ ['\'']
  | .basicLines => quotes ++ start ++ basicChars true 2 0 chars ++ quotes
  | .literalLines => ticks ++ start ++ chars ++ ticks

def isBareKey (key : String) : Bool :=
  key ≠ "" && key.toList.all fun c => c.isAlphanum || c == '_' || c == '-'

def keyChars (key : String) : List Char :=
  if isBareKey key then key.toList else stringChars key.toList

mutual

/-- A value on the right of its key. Arrays of two items or more take a line for each. -/
def inlineChars : Toml → List Char
  | .string text => stringChars text.toList
  | .integer n => (Text.writeInt n).toList
  | .float lexeme => lexeme.toList
  | .boolean b => if b then "true".toList else "false".toList
  | .datetime lexeme => lexeme.toList
  | .array [] => ['[', ']']
  | .array [v] => '[' :: inlineChars v ++ [']']
  | .array (v :: w :: rest) => '[' :: '\n' :: inlineItems (v :: w :: rest) ++ [']']
  | .table [] => ['\x7b', '\x7d']
  | .table ((key, v) :: rest) =>
    '\x7b' :: ' ' :: keyChars key ++ ' ' :: '=' :: ' ' :: inlineChars v ++ inlineMembers rest

def inlineItems : List Toml → List Char
  | [] => []
  | v :: rest => List.replicate 4 ' ' ++ inlineChars v ++ ',' :: '\n' :: inlineItems rest

def inlineMembers : List (String × Toml) → List Char
  | [] => [' ', '\x7d']
  | (key, v) :: rest =>
    ',' :: ' ' :: keyChars key ++ ' ' :: '=' :: ' ' :: inlineChars v ++ inlineMembers rest

end

def isSection : Toml → Bool
  | .table _ => true
  | .array (.table _ :: _) => true
  | _ => false

def lineChars (entry : String × Toml) : List Char :=
  keyChars entry.1 ++ [' ', '=', ' '] ++ inlineChars entry.2 ++ ['\n']

def pathChars (path : List String) : List Char :=
  (path.map keyChars).intersperse ['.'] |>.flatten

/-- A header, the values of its table, and nothing nested. -/
def headedChars (opening closing : List Char) (path : List String) (entries : List (String × Toml)) :
    List Char :=
  opening ++ pathChars path ++ closing ++ ['\n'] ++ entries.flatMap lineChars

/-- The parts of a document of sections: each table with its values, and after it the tables of its
arrays. -/
def sections (entries : List (String × Toml)) : List (List Char) :=
  entries.flatMap fun (name, v) => match v with
    | .table inner =>
      headedChars ['['] [']'] [name] (inner.filter fun (_, v) => !isSection v)
        :: inner.flatMap fun (key, v) => match v with
          | .array items =>
            if isSection v then items.map fun item => match item with
              | .table entries => headedChars ['[', '['] [']', ']'] [name, key] entries
              | _ => []
            else []
          | _ => []
    | _ => []

/-- A document of sections that hold values and arrays of flat tables. -/
def writeSections (entries : List (String × Toml)) : String :=
  String.ofList ((sections entries).intersperse ['\n']).flatten

end SessionGate.Toml
