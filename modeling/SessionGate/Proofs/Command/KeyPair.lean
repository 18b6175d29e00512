import Mathlib.Data.List.TakeWhile
import SessionGate.Command.Run
import SessionGate.Proofs.Host.Asking
import SessionGate.Proofs.Host.Directories

/-!
A run of `keygen`, request by request: what it leaves in the files, and how it ends. Main statement:
`keygen_ending`.
-/

namespace SessionGate.Command

open Host

variable {s t : System} {directory id : String} {force : Bool} {key : Rsa.PrivateKey}

section

variable (next : α → Run β)

theorem run_ask {r : Request α} {a : α} (h : s.perform r = (a, t)) :
    s.run (ask r >>= next).run = t.run (next a).run :=
  System.run_bind_ok next (System.run_lift r h)

theorem run_askFile_ok {r : Request (Except FileFault α)} {a : α} (h : s.perform r = (.ok a, t)) :
    s.run (askFile r >>= next).run = t.run (next a).run := by
  refine System.run_bind_ok next ?_
  exact run_ask _ h

theorem run_askFile_error {r : Request (Except FileFault α)} {fault : FileFault}
    (h : s.perform r = (.error fault, t)) :
    s.run (askFile r >>= next).run = (.error (.file fault), t) := by
  refine System.run_bind_error next ?_
  exact run_ask _ h

variable {files : Files} {fault : FileFault} {path text : String} (next : Unit → Run β)

theorem run_write_ok (h : s.files.write s.here path text = .ok files) :
    s.run (askFile (.write path text) >>= next).run = { s with files }.run (next ()).run :=
  run_askFile_ok next (congrArg s.change h)

theorem run_write_error (h : s.files.write s.here path text = .error fault) :
    s.run (askFile (.write path text) >>= next).run = (.error (.file fault), s) :=
  run_askFile_error next (congrArg s.change h)

theorem run_restrict_ok (h : s.files.restrict s.here path = .ok files) :
    s.run (askFile (.restrict path) >>= next).run = { s with files }.run (next ()).run :=
  run_askFile_ok next (congrArg s.change h)

/-- Whatever directories were made stay, with a fault too. -/
theorem perform_makeDirectories {outcome : Except FileFault Unit}
    (h : s.files.makeDirectories s.here path = (outcome, files)) :
    s.perform (.makeDirectories path) = (outcome, { s with files }) := by
  rw [System.perform, h]

theorem run_makeDirectories_ok (h : s.files.makeDirectories s.here path = (.ok (), files)) :
    s.run (askFile (.makeDirectories path) >>= next).run = { s with files }.run (next ()).run :=
  run_askFile_ok next (perform_makeDirectories h)

theorem run_makeDirectories_error (h : s.files.makeDirectories s.here path = (.error fault, files)) :
    s.run (askFile (.makeDirectories path) >>= next).run = (.error (.file fault), { s with files }) :=
  run_askFile_error next (perform_makeDirectories h)

end

theorem run_firstPresent (paths : List String) (s : System) :
    s.run (firstPresent paths).run = (.ok (paths.find? (s.files.contains s.here)), s) := by
  induction paths with
  | nil => rfl
  | cons path rest ih =>
    rw [firstPresent, List.find?_cons]
    have hasked : s.perform (.isThere path) = (s.files.contains s.here path, s) := rfl
    refine (run_ask _ hasked).trans ?_
    by_cases hpath : s.files.contains s.here path = true
    · rw [if_pos hpath, hpath]
      rfl
    · rw [if_neg hpath, eq_false_of_ne_true hpath]
      exact ih

/-- The texts of a key pair under the names of their files, in the order in which they are written. -/
def pairTexts (id : String) (key : Rsa.PrivateKey) : List (String × String) :=
  [("private.pem", privateText key), ("public.pem", publicText key), ("jwks.json", setText id key)]

theorem isName_of_mem_pairTexts {e : String × String} (he : e ∈ pairTexts id key) : IsName e.1 := by
  simp only [pairTexts, List.mem_cons, List.not_mem_nil, or_false] at he
  rcases he with rfl | rfl | rfl
  · exact show IsName "private.pem" by decide
  · exact show IsName "public.pem" by decide
  · exact show IsName "jwks.json" by decide

theorem joinPath_mem_all {e : String × String} (he : e ∈ pairTexts id key) (directory : String) :
    joinPath directory e.1 ∈ (KeyFiles.under directory).all := by
  have hall : (KeyFiles.under directory).all =
      (pairTexts id key).map fun e => joinPath directory e.1 := by
    simp only [KeyFiles.all, KeyFiles.under, pairTexts, List.map_cons, List.map_nil]
  rw [hall]
  exact List.mem_map_of_mem he

/-- A tree is another one with texts in the files of a directory. -/
structure Filled (f f' : Files) (place : Place) (texts : List (String × String)) : Prop where
  inside : ∀ e ∈ texts, ∃ ownerOnly, f'.file? (place ++ [e.1]) = some (e.2.toUTF8.toList, ownerOnly)
  outside : ∀ q, (∀ e ∈ texts, q ≠ place ++ [e.1]) → f'.file? q = f.file? q
  directory_iff : ∀ q, f'.node? q = some .directory ↔ f.node? q = some .directory

namespace Filled

variable {f f' f'' : Files} {place : Place} {texts : List (String × String)}

theorem nil (f : Files) (place : Place) : Filled f f place [] where
  inside _ h := (List.not_mem_nil h).elim
  outside _ _ := rfl
  directory_iff _ := Iff.rfl

theorem concat (h : Filled f f' place texts) {name text : String}
    (hname : name ∉ texts.map Prod.fst) (hnode : f.node? (place ++ [name]) ≠ some .directory)
    (hstores : f'.Stores f'' (place ++ [name]) text.toUTF8.toList) :
    Filled f f'' place (texts ++ [(name, text)]) where
  inside e he := by
    rcases List.mem_append.mp he with hearlier | hlast
    · have hne : place ++ [e.1] ≠ place ++ [name] := by
        intro heq
        obtain rfl : e.1 = name := by simpa using heq
        exact hname (List.mem_map_of_mem hearlier)
      rw [hstores.file?_of_ne hne]
      exact h.inside e hearlier
    · obtain rfl := List.mem_singleton.mp hlast
      exact hstores.file?_place
  outside q hq := by
    rw [hstores.file?_of_ne (hq _ (List.mem_append_right _ (List.mem_singleton_self _))),
      h.outside q fun e he => hq e (List.mem_append_left _ he)]
  directory_iff q := by
    rw [hstores.directory_iff (mt (h.directory_iff _).mp hnode), h.directory_iff]

theorem directoryAt (h : Filled f f' place texts) {here q : Place} {path : String}
    (hq : f.directoryAt here path = .ok q) : f'.directoryAt here path = .ok q := by
  obtain ⟨hfollow, hdirectory⟩ := Files.directoryAt_eq_ok_iff.mp hq
  exact Files.directoryAt_eq_ok_iff.mpr
    ⟨Files.follow_mono (fun p hp => Files.enter_eq_ok_iff.mpr
      ((h.directory_iff p).mpr (Files.enter_eq_ok_iff.mp hp))) hfollow, (h.directory_iff q).mpr hdirectory⟩

end Filled

/-- What is written at the end: where the files are, and what to do with them. -/
def report (directory id : String) : Run Unit := do
  let files := KeyFiles.under directory
  success ("Wrote " ++ files.privatePath)
  success ("Wrote " ++ files.publicPath)
  success ("Wrote " ++ files.setPath)
  info ("Set token.mode = \"asymmetric\", token.private_key_path = \"" ++ files.privatePath
    ++ "\" and token.key_id = \"" ++ id ++ "\"")
  info ("When rotating, list " ++ files.publicPath ++ " under token.retired_keys with key_id \""
    ++ id ++ "\"")

theorem run_report (directory id : String) (s : System) :
    (s.run (report directory id).run).1 = .ok () ∧
      (s.run (report directory id).run).2.files = s.files := ⟨rfl, rfl⟩

/-- One text after another, each in the file of its name, and then the rest. -/
def writeTexts (directory : String) : List (String × String) → Run Unit → Run Unit
  | [], next => next
  | e :: texts, next =>
    askFile (.write (joinPath directory e.1) e.2) >>= fun _ => writeTexts directory texts next

theorem writeKey_eq (directory id : String) (key : Rsa.PrivateKey) : writeKey directory id key =
    askFile (.makeDirectories directory) >>= fun _ =>
    askFile (.write (joinPath directory "private.pem") (privateText key)) >>= fun _ =>
    askFile (.restrict (joinPath directory "private.pem")) >>= fun _ =>
    writeTexts directory (pairTexts id key).tail (report directory id) := by
  simp only [pairTexts, List.tail_cons, writeTexts]
  rfl

/-- Texts up to the first whose file would have to be where a directory is. -/
def front (f : Files) (place : Place) (texts : List (String × String)) : List (String × String) :=
  texts.takeWhile fun e => f.node? (place ++ [e.1]) ≠ some .directory

section

variable {f f' : Files} {place : Place} {texts : List (String × String)} {e : String × String}

theorem mem_of_mem_front (h : e ∈ front f place texts) : e ∈ texts :=
  (List.takeWhile_sublist _).mem h

theorem front_stop (h : f.node? (place ++ [e.1]) = some .directory) : front f place (e :: texts) = [] :=
  List.takeWhile_cons_of_neg (by simpa using h)

theorem front_cons (h : f.node? (place ++ [e.1]) ≠ some .directory) :
    front f place (e :: texts) = e :: front f place texts :=
  List.takeWhile_cons_of_pos (decide_eq_true h)

theorem front_eq_self (h : ∀ e ∈ texts, f.node? (place ++ [e.1]) ≠ some .directory) :
    front f place texts = texts :=
  List.takeWhile_eq_self_iff.mpr fun e he => decide_eq_true (h e he)

theorem Filled.front_eq (h : Filled f f' place texts) (all : List (String × String)) :
    front f' place all = front f place all := by
  simp only [front, ne_eq, h.directory_iff]

end

/-- A pair is written in a directory up to the first file that cannot be. -/
structure WrittenUpTo (id : String) (key : Rsa.PrivateKey) (f f' : Files) (place : Place)
    (result : Except Failure Unit) : Prop where
  filled : Filled f f' place (front f place (pairTexts id key))
  result_eq : result =
    if front f place (pairTexts id key) = pairTexts id key then .ok () else .error (.file .isDirectory)

theorem WrittenUpTo.front_eq_self {f f' : Files} {place : Place}
    (h : WrittenUpTo id key f f' place (.ok ())) : front f place (pairTexts id key) = pairTexts id key := by
  have hresult := h.result_eq
  split at hresult
  · assumption
  · cases hresult

section

variable {made files : Files} {place : Place} {texts : List (String × String)} {name : String}
  (hnul : directory.toList.any (·.toNat == 0) = false)
  (hplace : made.directoryAt s.here directory = .ok place) (hfilled : Filled made files place texts)
  (hname : IsName name)

include hnul hplace hfilled hname

theorem resolve_name : files.resolve s.here (joinPath directory name) = .ok (place ++ [name]) := by
  rw [Files.resolve_joinPath hname files s.here hnul, hfilled.directoryAt hplace]
  rfl

theorem read_filled {text : String} (htext : (name, text) ∈ texts) :
    files.read s.here (joinPath directory name) = .ok text := by
  obtain ⟨ownerOnly, hfile⟩ := hfilled.inside _ htext
  rw [Files.read, resolve_name hnul hplace hfilled hname]
  dsimp only [bind, Except.bind]
  rw [Files.node?_of_file? hfile]
  exact Files.textOf_toUTF8 text

/-- A directory in the place of a file ends the command where the file would be written. -/
theorem run_write_directory (hnode : made.node? (place ++ [name]) = some .directory) (text : String)
    (next : Unit → Run Unit) :
    { s with files }.run (askFile (.write (joinPath directory name) text) >>= next).run =
      (.error (.file .isDirectory), { s with files }) :=
  run_write_error (s := { s with files }) next (Files.write_of_directory
    (resolve_name hnul hplace hfilled hname) ((hfilled.directory_iff _).mpr hnode) text)

/-- Anywhere else the file is written, and the command goes on. -/
theorem run_write_file (hnode : made.node? (place ++ [name]) ≠ some .directory)
    (hfresh : name ∉ texts.map Prod.fst) (text : String) : ∃ files',
      Filled made files' place (texts ++ [(name, text)]) ∧
      ∀ next : Unit → Run Unit,
        { s with files }.run (askFile (.write (joinPath directory name) text) >>= next).run =
          { s with files := files' }.run (next ()).run := by
  obtain ⟨files', hwrite, hwritten⟩ := Files.exists_write (resolve_name hnul hplace hfilled hname)
    (mt (hfilled.directory_iff _).mp hnode) text
  exact ⟨files', hfilled.concat hfresh hnode hwritten,
    fun next => run_write_ok (s := { s with files }) next hwrite⟩

end

/-- Keeping others from the file that was just written leaves what is in it. -/
theorem run_restrict_file {made files : Files} {place : Place} {name text : String}
    (hnul : directory.toList.any (·.toNat == 0) = false)
    (hplace : made.directoryAt s.here directory = .ok place)
    (hfilled : Filled made files place [(name, text)]) (hname : IsName name)
    (hnode : made.node? (place ++ [name]) ≠ some .directory) : ∃ files',
      Filled made files' place [(name, text)] ∧
      ∀ next : Unit → Run Unit,
        { s with files }.run (askFile (.restrict (joinPath directory name)) >>= next).run =
          { s with files := files' }.run (next ()).run := by
  obtain ⟨ownerOnly, hfile⟩ := hfilled.inside _ (List.mem_singleton_self _)
  obtain ⟨files', hrestrict, hstores⟩ := Files.exists_restrict
    (resolve_name hnul hplace hfilled hname) (Files.node?_of_file? hfile)
  refine ⟨files', ?_, fun next => run_restrict_ok (s := { s with files }) next hrestrict⟩
  exact
    { inside := fun e he => by
        obtain rfl := List.mem_singleton.mp he
        exact hstores.file?_place
      outside := fun q hq => by
        rw [hstores.file?_of_ne (hq _ (List.mem_singleton_self _)), hfilled.outside q hq]
      directory_iff := fun q => by
        rw [hstores.directory_iff (mt (hfilled.directory_iff _).mp hnode), hfilled.directory_iff] }

/-- By induction on the texts: what is written before stays, and the first directory in the place of a file
is the end. -/
theorem run_writeTexts {made : Files} {place : Place}
    (hnul : directory.toList.any (·.toNat == 0) = false)
    (hplace : made.directoryAt s.here directory = .ok place) {texts : List (String × String)}
    (hnames : ∀ e ∈ texts, IsName e.1) {earlier : List (String × String)} {files : Files}
    (hfilled : Filled made files place earlier) (hfresh : ((earlier ++ texts).map Prod.fst).Nodup) :
    ∃ files', Filled made files' place (earlier ++ front made place texts) ∧
      ∀ next : Run Unit, { s with files }.run (writeTexts directory texts next).run =
        if front made place texts = texts then { s with files := files' }.run next.run
        else (.error (.file .isDirectory), { s with files := files' }) := by
  induction texts generalizing earlier files with
  | nil => exact ⟨files, by simpa [front] using hfilled, fun next => rfl⟩
  | cons e texts ih =>
    obtain ⟨hname, hnames⟩ := List.forall_mem_cons.mp hnames
    by_cases hnode : made.node? (place ++ [e.1]) = some .directory
    · rw [front_stop hnode]
      refine ⟨files, by simpa using hfilled, fun next => ?_⟩
      rw [if_neg (List.cons_ne_nil _ _).symm]
      exact run_write_directory hnul hplace hfilled hname hnode e.2 _
    · have hnew : e.1 ∉ earlier.map Prod.fst := by
        rw [List.map_append] at hfresh
        exact fun hmem => (List.nodup_append.mp hfresh).2.2 _ hmem _ List.mem_cons_self rfl
      obtain ⟨written, hwritten, hrun⟩ := run_write_file hnul hplace hfilled hname hnode hnew e.2
      obtain ⟨files', hfilled', hrest⟩ := ih hnames hwritten (by simpa using hfresh)
      rw [front_cons hnode]
      refine ⟨files', by simpa using hfilled', fun next => ?_⟩
      rw [writeTexts, hrun, hrest]
      simp only [List.cons.injEq, true_and]

theorem run_writeKey {made : Files} {place : Place}
    (hmade : s.files.makeDirectories s.here directory = (.ok (), made))
    (hplace : made.directoryAt s.here directory = .ok place) :
    WrittenUpTo id key made (s.run (writeKey directory id key).run).2.files place
      (s.run (writeKey directory id key).run).1 := by
  have hnul := Files.noNul_of_makeDirectories hmade
  have hprivateName : IsName "private.pem" := by decide
  have hnone := Filled.nil made place
  rw [writeKey_eq, run_makeDirectories_ok _ hmade]
  by_cases hprivate : made.node? (place ++ ["private.pem"]) = some .directory
  · have hfront : front made place (pairTexts id key) = [] := front_stop hprivate
    rw [run_write_directory hnul hplace hnone hprivateName hprivate]
    exact ⟨by rw [hfront]; exact hnone, by rw [hfront, if_neg (by simp [pairTexts])]⟩
  obtain ⟨written, hwritten, hwrite⟩ :=
    run_write_file hnul hplace hnone hprivateName hprivate (by decide) (privateText key)
  obtain ⟨first, hfirst, hrestrict⟩ := run_restrict_file hnul hplace hwritten hprivateName hprivate
  have hnames : ∀ e ∈ (pairTexts id key).tail, IsName e.1 := fun e he =>
    isName_of_mem_pairTexts (List.mem_of_mem_tail he)
  obtain ⟨files, hfilled, hrest⟩ := run_writeTexts hnul hplace hnames hfirst (by simp [pairTexts])
  have hfront : front made place (pairTexts id key) =
      ("private.pem", privateText key) :: front made place (pairTexts id key).tail := front_cons hprivate
  have hall : front made place (pairTexts id key) = pairTexts id key ↔
      front made place (pairTexts id key).tail = (pairTexts id key).tail := by
    rw [hfront]
    exact List.cons_inj_right _
  rw [List.singleton_append, ← hfront] at hfilled
  rw [hwrite, hrestrict, hrest]
  split
  · next htail =>
    exact ⟨hfilled, (run_report directory id _).1.trans (if_pos (hall.mpr htail)).symm⟩
  · next htail => exact ⟨hfilled, (if_neg (mt hall.mp htail)).symm⟩

/-- Nothing is in the way of a key pair, or it is forced. -/
def MayWrite (directory : String) (force : Bool) (s : System) : Prop :=
  force = true ∨ ∀ path ∈ (KeyFiles.under directory).all, s.files.contains s.here path = false

theorem MayWrite.not_present (h : MayWrite directory force s) (hforce : force = false) {path : String}
    (hpath : path ∈ (KeyFiles.under directory).all) : ¬ s.files.contains s.here path = true := by
  rcases h with hforced | hnone
  · cases hforce.symm.trans hforced
  · exact Bool.eq_false_iff.mp (hnone path hpath)

/-- How making a key pair ends. -/
inductive Ending (directory id : String) (force : Bool) (s : System) (result : Except Failure Unit)
    (files : Files) : Prop
  /-- Something is there already, and stays. -/
  | refused (hforce : force = false)
      (hpresent : ∃ path ∈ (KeyFiles.under directory).all, s.files.contains s.here path = true)
      (hresult : result = .ok ()) (hfiles : files = s.files)
  /-- There is no key, or no directory for it, though there may be some on the way to it. -/
  | failed (hfree : MayWrite directory force s)
      (hreason : s.key = none ∨ ∀ made, s.files.makeDirectories s.here directory = (.ok (), made) →
        ∀ place, made.directoryAt s.here directory ≠ .ok place)
      (failure : Failure) (hresult : result = .error failure) (hgains : s.files.Gains files)
  | written (hfree : MayWrite directory force s) (key : Rsa.PrivateKey) (hkey : s.key = some key)
      (made : Files) (place : Place)
      (hmade : s.files.makeDirectories s.here directory = (.ok (), made))
      (hplace : made.directoryAt s.here directory = .ok place)
      (hwritten : WrittenUpTo id key made files place result)

/-- Without a directory for the first file none is written, and what is left are directories. -/
theorem writeKey_ending (hfree : MayWrite directory force s) (hkey : s.key = some key) :
    Ending directory id force s (s.run (writeKey directory id key).run).1
      (s.run (writeKey directory id key).run).2.files := by
  rcases hmade : s.files.makeDirectories s.here directory with ⟨outcome, made⟩
  have hgains := Files.gains_makeDirectories hmade
  cases outcome with
  | error fault =>
    rw [writeKey_eq, run_makeDirectories_error _ hmade]
    refine .failed hfree (.inr fun made' hmade' => ?_) _ rfl hgains
    cases hmade.symm.trans hmade'
  | ok =>
    cases hplace : made.directoryAt s.here directory with
    | ok place => exact .written hfree key hkey made place hmade hplace (run_writeKey hmade hplace)
    | error fault =>
      have hresolve : made.resolve s.here (joinPath directory "private.pem") = .error fault := by
        rw [Files.resolve_joinPath (by decide) made s.here (Files.noNul_of_makeDirectories hmade), hplace]
        rfl
      have hwrite : made.write s.here (joinPath directory "private.pem") (privateText key) =
          .error fault := by
        rw [Files.write, hresolve]
        rfl
      rw [writeKey_eq, run_makeDirectories_ok _ hmade,
        run_write_error (s := { s with files := made }) _ hwrite]
      refine .failed hfree (.inr fun made' hmade' place hplace' => ?_) _ rfl hgains
      obtain rfl := (Prod.mk.inj (hmade.symm.trans hmade')).2
      cases hplace.symm.trans hplace'

/-- What is left to do where nothing is in the way. -/
def generate (directory id : String) : Run Unit := do
  info ("Generating " ++ Nat.repr Rsa.newBits ++ "-bit RSA key '" ++ id ++ "'")
  match ← ask .newKey with
  | none => throw (.setup (.key .notGenerated))
  | some key => writeKey directory id key

theorem run_keygen_present {path : String}
    (hfound : (KeyFiles.under directory).all.find? (s.files.contains s.here) = some path) :
    s.run (keygen directory id false).run =
      s.run (warn (path ++ " already exists (use --force to overwrite)")).run := by
  refine (System.run_bind_ok _ (run_firstPresent _ s)).trans ?_
  rw [hfound]
  rfl

theorem run_keygen_free (hfree : force = true ∨
    (KeyFiles.under directory).all.find? (s.files.contains s.here) = none) :
    s.run (keygen directory id force).run = s.run (generate directory id).run := by
  refine (System.run_bind_ok _ (run_firstPresent _ s)).trans ?_
  rcases hfree with rfl | hnone
  · cases (KeyFiles.under directory).all.find? (s.files.contains s.here) <;> rfl
  · rw [hnone]
    rfl

theorem generate_ending (hfree : MayWrite directory force s) :
    Ending directory id force s (s.run (generate directory id).run).1
      (s.run (generate directory id).run).2.files := by
  let told : System := { s with
    output := s.output ++ ["ℹ " ++ ("Generating " ++ Nat.repr Rsa.newBits ++ "-bit RSA key '" ++ id ++ "'")] }
  have hasked : told.perform .newKey = (s.key, told) := rfl
  have hrun : s.run (generate directory id).run = told.run (match s.key with
      | none => throw (.setup (.key .notGenerated))
      | some key => writeKey directory id key : Run Unit).run :=
    (run_ask _ rfl).trans (run_ask _ hasked)
  rw [hrun]
  cases hkey : s.key with
  | none => exact .failed hfree (.inl hkey) _ rfl (.refl _)
  | some key =>
    -- Nothing that decides how the writing ends has changed with the output.
    have hending : Ending directory id force told (told.run (writeKey directory id key).run).1
      (told.run (writeKey directory id key).run).2.files := writeKey_ending hfree hkey
    cases hending with
    | refused hforce hpresent hresult hfiles => exact .refused hforce hpresent hresult hfiles
    | failed hfree hreason failure hresult hgains =>
      exact .failed hfree hreason failure hresult hgains
    | written hfree key hkey made place hmade hplace hwritten =>
      exact .written hfree key hkey made place hmade hplace hwritten

theorem keygen_ending (directory id : String) (force : Bool) (s : System) :
    Ending directory id force s (s.run (keygen directory id force).run).1
      (s.run (keygen directory id force).run).2.files := by
  cases hfound : (KeyFiles.under directory).all.find? (s.files.contains s.here) with
  | none =>
    rw [run_keygen_free (.inr hfound)]
    exact generate_ending (.inr (by simpa using List.find?_eq_none.mp hfound))
  | some path =>
    cases force with
    | true =>
      rw [run_keygen_free (.inl rfl)]
      exact generate_ending (.inl rfl)
    | false =>
      rw [run_keygen_present hfound]
      have hthere : s.files.contains s.here path = true := List.find?_some hfound
      exact .refused rfl ⟨path, List.mem_of_find?_eq_some hfound, hthere⟩ rfl rfl

/-- With a key, directories that can be made for it and none where a file has to be, it succeeds. -/
theorem keygen_eq_ok (hkey : s.key = some key) {made : Files}
    (hmade : s.files.makeDirectories s.here directory = (.ok (), made)) (hne : directory ≠ "")
    (hall : ∀ place, made.directoryAt s.here directory = .ok place →
      ∀ name ∈ ["private.pem", "public.pem", "jwks.json"], made.node? (place ++ [name]) ≠ some .directory)
    (id : String) (force : Bool) : (s.run (keygen directory id force).run).1 = .ok () := by
  cases keygen_ending directory id force s with
  | refused hforce hpresent hresult => exact hresult
  | failed hfree hreason =>
    rcases hreason with hnone | hnone
    · cases hkey.symm.trans hnone
    · obtain ⟨place, hplace⟩ := Files.makeDirectories_ok hmade hne
      exact (hnone made hmade place hplace).elim
  | written hfree key _ made' place hmade' hplace hwritten =>
    obtain rfl := (Prod.mk.inj (hmade.symm.trans hmade')).2
    rw [hwritten.result_eq, if_pos]
    exact front_eq_self (by simpa [pairTexts] using hall place hplace)

end SessionGate.Command
