import SessionGate.Config.Interpolation
import SessionGate.Config.Reader
import SessionGate.Config.Writer
import SessionGate.Setup.Authority

/-!
Finding, loading and saving the configuration. Without a path, the nearest file of the usual name
counts, from the working directory upward.
-/

namespace SessionGate.Setup

def fileName : String := "authgate.toml"

def pathOf (place : Host.Place) : String :=
  String.join (place.map fun name => "/" ++ name)

/-- The directories from a place up to the root, given its names in reverse. -/
def upward : List String → List Host.Place
  | [] => [[]]
  | name :: rest => (name :: rest).reverse :: upward rest

def searchIn : List Host.Place → Task String
  | [] => throw .noConfig
  | place :: rest => do
    let path := pathOf place ++ "/" ++ fileName
    if ← ExceptT.lift (Program.perform (.isThere path)) then return path else searchIn rest

def findConfig : Task String := do
  let here ← ExceptT.lift (Program.perform .workingDirectory)
  searchIn (upward here.reverse)

/-- The configuration in a file. One that cannot be read as text counts as missing. -/
def loadFrom (path : String) : Task Config := do
  match ← ExceptT.lift (Program.perform (.read path)) with
  | .error _ => throw .noConfig
  | .ok text =>
    let environment ← ExceptT.lift (Program.perform .environment)
    match Config.ofText? (Config.interpolate (fun name => environment.lookup name) text) with
    | some c => return c
    | none => throw .badConfig

def load (path : Option String) : Task Config := do
  match path with
  | some path => loadFrom path
  | none => loadFrom (← findConfig)

def save (c : Config) (path : String) : Task Unit := ExceptT.mk do
  return (← Program.perform (.write path c.toText)).mapError .file

end SessionGate.Setup
