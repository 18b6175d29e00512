import SessionGate.Command.Run
import SessionGate.Rsa.Generate

/-!
The program itself: the command line is read, and its command runs against the system at hand.
-/

namespace SessionGate.Main

open Host

def faultOf : IO.Error → FileFault
  | .noFileOrDirectory _ _ _ | .noSuchThing _ _ _ => .notFound
  | .alreadyExists _ _ _ => .alreadyThere
  | .permissionDenied _ _ _ => .denied
  | .inappropriateType _ _ _ => .notDirectory
  | e => .other (toString e)

def attempt (work : IO α) : IO (Except FileFault α) := do
  match ← work.toBaseIO with
  | .ok a => return .ok a
  | .error e => return .error (faultOf e)

def readText (path : String) : IO (Except FileFault String) := do
  return (← attempt (IO.FS.readBinFile path)).bind fun bytes => Files.textOf bytes.toList

def isThere (path : String) : IO Bool := do
  return (← attempt (IO.FS.realPath path)).toOption.isSome

def placeOf (path : String) : Place := (path.splitOn "/").filter (· ≠ "")

def setting? (text : String) : Option (String × String) :=
  match text.splitOn "=" with
  | name :: value => some (name, "=".intercalate value)
  | [] => none

def environment : IO (List (String × String)) := do
  match ← readText "/proc/self/environ" with
  | .ok text => return (text.splitOn "\x00").filterMap setting?
  | .error _ => return []

def ownerOnly : IO.FileRight := { user := { read := true, write := true } }

def randomBytes (count : Nat) : IO (List UInt8) := do
  return (← IO.getRandomBytes count.toUSize).toList

def handle : {β : Type} → Request β → IO β
  | _, .read path => readText path
  | _, .write path text => attempt (IO.FS.writeFile path text)
  | _, .isThere path => isThere path
  | _, .makeDirectories path =>
    if path = "" then return .ok () else attempt (IO.FS.createDirAll path)
  | _, .restrict path => attempt (IO.setAccessRights path ownerOnly)
  | _, .workingDirectory => return placeOf (← IO.currentDir).toString
  | _, .environment => environment
  | _, .print line => IO.println line
  | _, .complain line => IO.eprintln line
  | _, .inputLine => do (← IO.getStdin).getLine
  | _, .reach _ => return false
  | _, .listen _ => return .notSupported
  | _, .entropy count => randomBytes count
  | _, .newKey => return Rsa.generate? (← randomBytes 32)

def run (a : Command.Arguments) : IO UInt32 := do
  match ← (Command.run a).run.run handle with
  | .ok () => return 0
  | .error failure =>
    IO.eprintln ("Error: " ++ failure.message)
    return 1

end SessionGate.Main

open SessionGate in
def main (words : List String) : IO UInt32 := do
  match Command.parse ((← Main.environment).lookup "AUTHGATE_CONFIG") words with
  | .ok a => Main.run a
  | .error .version => do
    IO.println Command.versionText
    return 0
  | .error .help => do
    IO.println Command.helpText
    return 0
  | .error .usage => do
    IO.eprintln Command.helpText
    return 2
