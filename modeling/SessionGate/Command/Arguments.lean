import SessionGate.Text.Decimal

/-!
The command line: one of five commands with its switches, and a path to the configuration that every
command takes. Switches are long or short, and a value stands in the same word or in the next.
-/

namespace SessionGate.Command

inductive Action
  | init
  | serve (host : Option String) (port : Option UInt16)
  | keygen (outDir keyId : String) (force : Bool)
  | jwks
  | hashPassword (password : Option String)
deriving DecidableEq, Repr

structure Arguments where
  config : Option String
  action : Action
deriving DecidableEq, Repr

/-- How a command line ends without a command. -/
inductive Stop
  | usage
  | help
  | version
deriving DecidableEq, Repr

inductive Arity
  | none
  | text
  | path
  | port
  /-- Nothing: it stops the command line. -/
  | stop (s : Stop)
deriving DecidableEq, Repr

structure Switch where
  long : String
  short : Option Char
  arity : Arity
deriving DecidableEq, Repr

/-- The switches, commands and free words that may come at some point. -/
structure Grammar where
  switches : List Switch
  commands : List String
  words : Nat

structure Seen where
  switches : List (String × String)
  words : List String

namespace Seen

def empty : Seen := ⟨[], []⟩

def value? (s : Seen) (long : String) : Option String := s.switches.lookup long

def has (s : Seen) (long : String) : Bool := (s.value? long).isSome

end Seen

def portOf? (text : String) : Option UInt16 :=
  match Text.readInt64 text with
  | .ok n => if 0 ≤ n.toInt ∧ n.toInt < 65536 then some (UInt16.ofNat n.toInt.toNat) else none
  | .error _ => none

def fits (arity : Arity) (value : String) : Bool :=
  match arity with
  | .path => value ≠ ""
  | .port => (portOf? value).isSome
  | _ => true

/-- Takes note of a switch and its value. No switch comes twice. -/
def record (seen : Seen) (s : Switch) (value : String) : Except Stop Seen :=
  match s.arity with
  | .stop reason => .error reason
  | arity =>
    if seen.has s.long || !fits arity value then .error .usage
    else .ok { seen with switches := (s.long, value) :: seen.switches }

def takesValue (a : Arity) : Bool :=
  match a with
  | .text | .path | .port => true
  | _ => false

/-- A word that begins a switch. A lone dash does not. -/
def isSwitch (word : String) : Bool := word.toList.head? = some '-' && word ≠ "-"

/-- A word of short switches after its dash: what has been seen then, and a switch that still needs
its value from the next word. -/
def cluster (g : Grammar) (seen : Seen) : List Char → Except Stop (Seen × Option Switch)
  | [] => .ok (seen, none)
  | c :: rest =>
    match g.switches.find? (·.short == some c) with
    | none => .error .usage
    | some s =>
      if takesValue s.arity then
        match rest with
        | [] => .ok (seen, some s)
        | '=' :: value => (record seen s (String.ofList value)).map (·, none)
        | value => (record seen s (String.ofList value)).map (·, none)
      else do
        let seen ← record seen s ""
        cluster g seen rest

/-- A word of a long switch after its two dashes. -/
def long (g : Grammar) (seen : Seen) (word : List Char) : Except Stop (Seen × Option Switch) :=
  let name := String.ofList (word.takeWhile (· ≠ '='))
  match g.switches.find? (·.long = name) with
  | none => .error .usage
  | some s => match word.dropWhile (· ≠ '=') with
    | _ :: value =>
      if takesValue s.arity then (record seen s (String.ofList value)).map (·, none)
      else .error .usage
    | [] =>
      if takesValue s.arity then .ok (seen, some s) else (record seen s "").map (·, none)

def switchWord (g : Grammar) (seen : Seen) (word : String) : Except Stop (Seen × Option Switch) :=
  match word.toList with
  | '-' :: '-' :: rest => long g seen rest
  | '-' :: rest => cluster g seen rest
  | _ => .error .usage

def freeWord (g : Grammar) (seen : Seen) (word : String) : Except Stop Seen :=
  if seen.words.length < g.words then .ok { seen with words := seen.words ++ [word] }
  else .error .usage

/-- Words up to a command, which is given with the words after it, or to the end. -/
def scan (g : Grammar) (seen : Seen) :
    List String → Except Stop (Seen × Option (String × List String))
  | [] => .ok (seen, none)
  | word :: rest =>
    if word = "--" then do
      let seen ← rest.foldlM (freeWord g) seen
      .ok (seen, none)
    else if isSwitch word then
      match switchWord g seen word, rest with
      | .error stop, _ => .error stop
      | .ok (seen, none), rest => scan g seen rest
      | .ok (_, some _), [] => .error .usage
      | .ok (seen, some s), value :: rest =>
        if isSwitch value then .error .usage
        else match record seen s value with
          | .error stop => .error stop
          | .ok seen => scan g seen rest
    else if word ∈ g.commands then .ok (seen, some (word, rest))
    else match freeWord g seen word with
      | .error stop => .error stop
      | .ok seen => scan g seen rest

def configSwitch : Switch := ⟨"config", some 'c', .path⟩
def helpSwitch : Switch := ⟨"help", some 'h', .stop .help⟩
def versionSwitch : Switch := ⟨"version", some 'V', .stop .version⟩
def hostSwitch : Switch := ⟨"host", none, .text⟩
def portSwitch : Switch := ⟨"port", some 'p', .port⟩
def outDirSwitch : Switch := ⟨"out-dir", some 'o', .path⟩
def keyIdSwitch : Switch := ⟨"key-id", some 'k', .text⟩
def forceSwitch : Switch := ⟨"force", some 'f', .none⟩

def commandNames : List String := ["init", "serve", "keygen", "jwks", "hash-password"]

def topGrammar : Grammar where
  switches := [configSwitch, helpSwitch, versionSwitch]
  commands := "help" :: commandNames
  words := 0

def grammarOf (command : String) : Grammar where
  switches := [configSwitch, helpSwitch] ++
    (if command = "serve" then [hostSwitch, portSwitch]
    else if command = "keygen" then [outDirSwitch, keyIdSwitch, forceSwitch]
    else [])
  commands := []
  words := if command = "hash-password" then 1 else 0

def actionOf (name : String) (seen : Seen) : Except Stop Action :=
  if name = "init" then .ok .init
  else if name = "jwks" then .ok .jwks
  else if name = "serve" then
    .ok (.serve (seen.value? "host") ((seen.value? "port").bind portOf?))
  else if name = "keygen" then
    match seen.value? "key-id" with
    | some id => .ok (.keygen ((seen.value? "out-dir").getD ".") id (seen.has "force"))
    | none => .error .usage
  else if name = "hash-password" then .ok (.hashPassword seen.words.head?)
  else .error .usage

def helpAbout : List String → Stop
  | [] => .help
  | [name] => if name ∈ "help" :: commandNames then .help else .usage
  | _ => .usage

/-- Reads a command line, given the path that the environment sets. A path on the line counts before
it, and one after the command before one in front of it. An empty path in the environment passes only
where both are given. -/
def parse (environment : Option String) (words : List String) : Except Stop Arguments := do
  let (top, command) ← scan topGrammar .empty words
  match command with
  | none => throw .usage
  | some (name, rest) =>
    if name = "help" then throw (helpAbout rest)
    let (seen, _) ← scan (grammarOf name) .empty rest
    let action ← actionOf name seen
    if environment = some "" ∧ !(top.has "config" && seen.has "config") then throw .usage
    let config := (seen.value? "config").or ((top.value? "config").or environment)
    return { config, action }

end SessionGate.Command
