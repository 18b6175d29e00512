import SessionGate.Text.Pieces

/-!
A tree of files. Places in it are lists of names from the root down; a path is a text that leads from
one directory to a place, and every directory on its way has to be there.
-/

namespace SessionGate.Host

inductive FileFault
  | notFound
  | alreadyThere
  | notDirectory
  | isDirectory
  | notUtf8
  | nulInPath
  | denied
  | notSupported
  | other (text : String)
deriving DecidableEq, Repr

def FileFault.message : FileFault → String
  | notFound => "No such file or directory (os error 2)"
  | alreadyThere => "File exists (os error 17)"
  | notDirectory => "Not a directory (os error 20)"
  | isDirectory => "Is a directory (os error 21)"
  | notUtf8 => "stream did not contain valid UTF-8"
  | nulInPath => "file name contained an unexpected NUL byte"
  | denied => "Permission denied (os error 13)"
  | notSupported => "Operation not supported (os error 95)"
  | other text => text

abbrev Place := List String

inductive Node
  | directory
  | file (bytes : List UInt8) (ownerOnly : Bool)
deriving DecidableEq, Repr

structure Files where
  nodes : List (Place × Node)
deriving Repr

namespace Files

/-- The root is always there. -/
def node? (f : Files) (place : Place) : Option Node :=
  if place = [] then some .directory else f.nodes.lookup place

def put (f : Files) (place : Place) (n : Node) : Files :=
  if f.nodes.any (·.1 == place) then
    ⟨f.nodes.map fun (p, m) => if p = place then (p, n) else (p, m)⟩
  else ⟨f.nodes ++ [(place, n)]⟩

def isDirectory (f : Files) (place : Place) : Bool := f.node? place == some .directory

/-- The directory at a place may be entered. -/
def enter (f : Files) (place : Place) : Except FileFault Unit :=
  match f.node? place with
  | some .directory => .ok ()
  | some (.file _ _) => .error .notDirectory
  | none => .error .notFound

/-- Follows names down from a place; the last of them need not exist. -/
def follow (f : Files) : Place → List String → Except FileFault Place
  | here, [] => .ok here
  | here, name :: rest => do
    f.enter here
    if name = "" ∨ name = "." then follow f here rest
    else if name = ".." then follow f here.dropLast rest
    else follow f (here ++ [name]) rest

def namesOf (path : String) : List String :=
  (Text.pieces '/' path.toList).map String.ofList

/-- Where a path starts from: the root, or the directory at hand. -/
def startOf (here : Place) (path : String) : Place :=
  if path.toList.head? = some '/' then [] else here

def resolve (f : Files) (here : Place) (path : String) : Except FileFault Place :=
  if path = "" then .error .notFound
  else if path.toList.any (·.toNat == 0) then .error .nulInPath
  else f.follow (startOf here path) (namesOf path)

def textOf (bytes : List UInt8) : Except FileFault String :=
  match String.fromUTF8? ⟨bytes.toArray⟩ with
  | some text => .ok text
  | none => .error .notUtf8

def read (f : Files) (here : Place) (path : String) : Except FileFault String := do
  match f.node? (← f.resolve here path) with
  | some (.file bytes _) => textOf bytes
  | some .directory => throw .isDirectory
  | none => throw .notFound

def contains (f : Files) (here : Place) (path : String) : Bool :=
  match f.resolve here path with
  | .ok place => (f.node? place).isSome
  | .error _ => false

/-- Writes a text to a file, new or not. A file that was for its owner alone stays so. -/
def write (f : Files) (here : Place) (path text : String) : Except FileFault Files := do
  let place ← f.resolve here path
  let bytes := text.toUTF8.toList
  match f.node? place with
  | some .directory => throw .isDirectory
  | some (.file _ ownerOnly) => return f.put place (.file bytes ownerOnly)
  | none => return f.put place (.file bytes false)

/-- Keeps all but the owner from a file. -/
def restrict (f : Files) (here : Place) (path : String) : Except FileFault Files := do
  let place ← f.resolve here path
  match f.node? place with
  | some (.file bytes _) => return f.put place (.file bytes true)
  | some .directory => return f
  | none => throw .notFound

/-- Nothing is named any more but the place at hand, by full stops. -/
def onlyDots (names : List String) : Bool :=
  names.contains "." && names.all fun name => name = "" || name = "."

/-- Makes the directories that are missing along names. The last of them is not made where a full stop
comes after it, as in `a/.`. Those that were made before a fault stay. -/
def makeAlong (f : Files) (made : Bool) : Place → List String → Except FileFault Unit × Files
  | here, [] => (f.enter here, f)
  | here, name :: rest =>
    match f.enter here with
    | .error fault => (.error fault, f)
    | .ok () =>
      if name = "" ∨ name = "." then makeAlong f made here rest
      else if name = ".." then makeAlong f made here.dropLast rest
      else
        let next := here ++ [name]
        match f.node? next with
        | some .directory => makeAlong f made next rest
        | some (.file _ _) =>
          (.error (if rest.all (· = "") ∨ made ∧ !onlyDots rest then .alreadyThere else .notDirectory), f)
        | none =>
          if onlyDots rest then (.error .notFound, f)
          else makeAlong (f.put next .directory) true next rest

def makeDirectories (f : Files) (here : Place) (path : String) : Except FileFault Unit × Files :=
  if path = "" then (.ok (), f)
  else if path.toList.any (·.toNat == 0) then (.error .nulInPath, f)
  else f.makeAlong false (startOf here path) (namesOf path)

end Files

def joinPath (directory name : String) : String :=
  if name.toList.head? = some '/' then name
  else if directory = "" then name
  else if directory.toList.getLast? = some '/' then directory ++ name
  else directory ++ "/" ++ name

end SessionGate.Host
