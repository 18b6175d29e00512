import SessionGate.Toml.Basic

/-!
Tables under construction. A statement adds a value at a path of keys; what it may pass through and
what it may define depends on how the tables on the way came about.
-/

namespace SessionGate.Toml

inductive Origin
  /-- On the way to a table with a header. -/
  | implied
  /-- By a header of its own. -/
  | declared
  /-- On the way of a dotted key. -/
  | dotted
deriving DecidableEq, Repr

inductive Node
  | value (v : Toml)
  | table (origin : Origin) (entries : List (String × Node))
  | tables (items : List (List (String × Node)))

abbrev Entries := List (String × Node)

mutual

def Node.toToml : Node → Toml
  | .value v => v
  | .table _ entries => .table (entriesToToml entries)
  | .tables items => .array (itemsToToml items)

def entriesToToml : List (String × Node) → List (String × Toml)
  | [] => []
  | (key, n) :: rest => (key, n.toToml) :: entriesToToml rest

def itemsToToml : List (List (String × Node)) → List Toml
  | [] => []
  | entries :: rest => .table (entriesToToml entries) :: itemsToToml rest

end

/-- Puts a node under a key, in the place of the one there or at the end. -/
def put (key : String) (n : Node) : Entries → Entries
  | [] => [(key, n)]
  | (k, m) :: rest => if k = key then (k, n) :: rest else (k, m) :: put key n rest

/-- Walks to the table at a path and changes it there. A walk along a dotted key makes its own tables;
of others it may pass through those that no header declared, but it must not end in one. Of an array
of tables a walk takes the last. -/
def walk (dotted : Bool) (change : Entries → Option Entries) :
    List String → Entries → Option Entries
  | [], entries => change entries
  | key :: path, entries =>
    match entries.lookup key with
    | none => do
      let inner ← walk dotted change path []
      some (put key (.table (if dotted then .dotted else .implied) inner) entries)
    | some (.table origin inner) =>
      if dotted ∧ (origin = .declared ∨ origin = .implied ∧ path = []) then none
      else do
        let inner ← walk dotted change path inner
        some (put key (.table origin inner) entries)
    | some (.tables items) =>
      if dotted ∧ path = [] then none
      else match items.getLast? with
        | some last => do
          let last ← walk dotted change path last
          some (put key (.tables (items.dropLast ++ [last])) entries)
        | none => none
    | some (.value _) => none

def define (key : String) (v : Toml) (entries : Entries) : Option Entries :=
  match entries.lookup key with
  | none => some (put key (.value v) entries)
  | some _ => none

/-- Declares a table: a new one, or one that so far was only implied. -/
def declare (key : String) (entries : Entries) : Option Entries :=
  match entries.lookup key with
  | none => some (put key (.table .declared []) entries)
  | some (.table .implied inner) => some (put key (.table .declared inner) entries)
  | some _ => none

def extend (key : String) (entries : Entries) : Option Entries :=
  match entries.lookup key with
  | none => some (put key (.tables [[]]) entries)
  | some (.tables items) => some (put key (.tables (items ++ [[]])) entries)
  | some _ => none

def splitPath? (path : List String) : Option (List String × String) :=
  path.getLast?.map fun last => (path.dropLast, last)

/-- Assigns a value at a dotted key inside the table at `here`. -/
def assign (here path : List String) (v : Toml) (root : Entries) : Option Entries := do
  let (before, key) ← splitPath? path
  walk false (walk true (define key v) before) here root

def declareAt (path : List String) (root : Entries) : Option Entries := do
  let (before, key) ← splitPath? path
  walk false (declare key) before root

def extendAt (path : List String) (root : Entries) : Option Entries := do
  let (before, key) ← splitPath? path
  walk false (extend key) before root

end SessionGate.Toml
