import SessionGate.Host.Files
import SessionGate.Program
import SessionGate.Rsa.Key

/-!
What a command asks of the system it runs on, and a system that is all data: files, an environment,
lines of input and the lines written so far.
-/

namespace SessionGate.Host

inductive Request : Type → Type
  | read (path : String) : Request (Except FileFault String)
  | write (path text : String) : Request (Except FileFault Unit)
  | isThere (path : String) : Request Bool
  | makeDirectories (path : String) : Request (Except FileFault Unit)
  | restrict (path : String) : Request (Except FileFault Unit)
  /-- The names of the working directory, from the root down. It can always be told: a program whose
  working directory is gone, or hidden from it, is left out. -/
  | workingDirectory : Request Place
  /-- Variables with their values, each name once. -/
  | environment : Request (List (String × String))
  | print (line : String) : Request Unit
  | complain (line : String) : Request Unit
  /-- The first line of the input, with its line end. -/
  | inputLine : Request String
  | reach (address : String) : Request Bool
  /-- Serves requests at an address until there is a fault. -/
  | listen (address : String) : Request FileFault
  /-- Bytes that nobody can guess. -/
  | entropy (count : Nat) : Request (List UInt8)
  /-- A key that nobody can guess, unless none is found. -/
  | newKey : Request (Option Rsa.PrivateKey)

structure System where
  files : Files
  here : Place
  environment : List (String × String)
  servers : List String
  input : String
  output : List String
  complaints : List String
  entropy : List UInt8
  key : Option Rsa.PrivateKey

namespace System

/-- A text up to its first line end, that one included. -/
def firstLine (text : String) : String :=
  let line := text.toList.takeWhile (· ≠ '\n')
  String.ofList (if line.length < text.length then line ++ ['\n'] else line)

def change (s : System) (result : Except FileFault Files) : Except FileFault Unit × System :=
  match result with
  | .ok files => (.ok (), { s with files })
  | .error fault => (.error fault, s)

def perform (s : System) : {β : Type} → Request β → β × System
  | _, .read path => (s.files.read s.here path, s)
  | _, .write path text => s.change (s.files.write s.here path text)
  | _, .isThere path => (s.files.contains s.here path, s)
  | _, .makeDirectories path =>
    let (result, files) := s.files.makeDirectories s.here path
    (result, { s with files })
  | _, .restrict path => s.change (s.files.restrict s.here path)
  | _, .workingDirectory => (s.here, s)
  | _, .environment => (s.environment, s)
  | _, .print line => ((), { s with output := s.output ++ [line] })
  | _, .complain line => ((), { s with complaints := s.complaints ++ [line] })
  | _, .inputLine => (firstLine s.input, s)
  | _, .reach address => (s.servers.contains address, s)
  | _, .listen _ => (.notSupported, s)
  | _, .entropy count => (s.entropy.take count, s)
  | _, .newKey => (s.key, s)

def handle {β : Type} (request : Request β) : StateM System β := fun s => s.perform request

def run (s : System) (p : Program Request α) : α × System := p.run handle s

end System

end SessionGate.Host
