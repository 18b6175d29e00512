import SessionGate.Proofs.Command.KeyPair

/-!
What `keygen` does to the files of a system, whatever is there before. Main statement: `keygen_replacement`.
-/

namespace SessionGate.Command

open Host

variable {directory id : String} {force : Bool} {s : System} {result : Except Failure Unit} {files : Files}

/-- What making a key pair does to files. -/
structure Replacement (directory id : String) (force : Bool) (s : System) (result : Except Failure Unit)
    (files : Files) : Prop where
  /-- Unless it is forced, it stops where one of the paths leads to something. -/
  refused : force = false →
    (∃ path ∈ (KeyFiles.under directory).all, s.files.contains s.here path = true) →
    result = .ok () ∧ files = s.files
  /-- Unless it is forced, it keeps every file, if the directory is there already or its path only goes
  down. -/
  kept : force = false →
    (∃ place, s.files.directoryAt s.here directory = .ok place) ∨
      s.files.IsTree ∧ ".." ∉ Files.namesOf directory →
    ∀ q, s.files.file? q ≠ none → files.file? q = s.files.file? q
  /-- No other file changes than the three in the directory. -/
  others : ∀ q, files.file? q ≠ s.files.file? q → ∃ place,
    files.directoryAt s.here directory = .ok place ∧
      ∃ name ∈ ["private.pem", "public.pem", "jwks.json"], q = place ++ [name]
  /-- The texts of one key are written up to the first file in whose place there is a directory. -/
  upTo : (∀ q, files.file? q = s.files.file? q) ∨ ∃ key place texts,
    s.key = some key ∧ files.directoryAt s.here directory = .ok place ∧
    texts = front files place (pairTexts id key) ∧
    (∀ e ∈ texts, files.read s.here (joinPath directory e.1) = .ok e.2) ∧
    (∀ q, (∀ e ∈ texts, q ≠ place ++ [e.1]) → files.file? q = s.files.file? q) ∧
    result = if texts = pairTexts id key then .ok () else .error (.file .isDirectory)
  /-- It does not succeed without them, unless it stopped. -/
  succeeded : result = .ok () →
    (force = false ∧ ∃ path ∈ (KeyFiles.under directory).all, s.files.contains s.here path = true) ∨
      ∃ key, s.key = some key ∧
        ∀ e ∈ pairTexts id key, files.read s.here (joinPath directory e.1) = .ok e.2
  /-- With no directory in the place of the second or the third, it is all of them or none. -/
  whole : (∀ place, files.directoryAt s.here directory = .ok place →
      ∀ name ∈ ["public.pem", "jwks.json"], files.node? (place ++ [name]) ≠ some .directory) →
    (∀ q, files.file? q = s.files.file? q) ∨ ∃ key, s.key = some key ∧ result = .ok () ∧
      ∀ e ∈ pairTexts id key, files.read s.here (joinPath directory e.1) = .ok e.2

theorem contains_of_file? {place : Place} {name : String} (hname : IsName name)
    (hnul : directory.toList.any (·.toNat == 0) = false)
    (hplace : s.files.directoryAt s.here directory = .ok place)
    (hfile : s.files.file? (place ++ [name]) ≠ none) :
    s.files.contains s.here (joinPath directory name) = true := by
  have hresolve : s.files.resolve s.here (joinPath directory name) = .ok (place ++ [name]) := by
    rw [Files.resolve_joinPath hname s.files s.here hnul, hplace]
    rfl
  rw [Files.contains, hresolve]
  cases hnode : s.files.node? (place ++ [name]) with
  | some n => exact congrArg Option.isSome hnode
  | none =>
    rw [Files.file?, hnode] at hfile
    exact (hfile rfl).elim

section

variable {key : Rsa.PrivateKey} {made : Files} {place : Place}

/-- The place that a path leads to once its directories are made is known before, if there is a file in
it and the path is no detour. -/
theorem directoryAt_of_file? {name : String} (hmade : s.files.makeDirectories s.here directory = (.ok (), made))
    (hplace : made.directoryAt s.here directory = .ok place)
    (hsteady : (∃ place, s.files.directoryAt s.here directory = .ok place) ∨
      s.files.IsTree ∧ ".." ∉ Files.namesOf directory)
    (hfile : s.files.file? (place ++ [name]) ≠ none) :
    s.files.directoryAt s.here directory = .ok place := by
  rcases hsteady with ⟨before, hbefore⟩ | ⟨htree, hdown⟩
  · rwa [Files.makeDirectories_of_directoryAt hbefore hmade] at hplace
  · have hnode : s.files.node? (place ++ [name]) ≠ none := by
      intro hnone
      rw [Files.file?, hnone] at hfile
      exact hfile rfl
    exact htree.directoryAt_of_gains hdown hplace hnode

/-- Unless it is forced, there is no file in the place of a text. -/
theorem file?_eq_none (hfree : MayWrite directory false s)
    (hmade : s.files.makeDirectories s.here directory = (.ok (), made))
    (hplace : made.directoryAt s.here directory = .ok place)
    (hsteady : (∃ place, s.files.directoryAt s.here directory = .ok place) ∨
      s.files.IsTree ∧ ".." ∉ Files.namesOf directory)
    {e : String × String} (he : e ∈ pairTexts id key) : s.files.file? (place ++ [e.1]) = none := by
  by_contra hfile
  have hbefore := directoryAt_of_file? hmade hplace hsteady hfile
  have hpresent := contains_of_file? (isName_of_mem_pairTexts he) (Files.noNul_of_makeDirectories hmade)
    hbefore hfile
  exact hfree.not_present rfl (joinPath_mem_all he directory) hpresent

theorem front_eq_nil_or_self
    (hnone : ∀ name ∈ ["public.pem", "jwks.json"], made.node? (place ++ [name]) ≠ some .directory) :
    front made place (pairTexts id key) = [] ∨
      front made place (pairTexts id key) = pairTexts id key := by
  by_cases hprivate : made.node? (place ++ ["private.pem"]) = some .directory
  · exact .inl (front_stop hprivate)
  · have hrest : front made place (pairTexts id key).tail = (pairTexts id key).tail :=
      front_eq_self (by simpa [pairTexts] using hnone)
    exact .inr ((front_cons hprivate).trans (congrArg (List.cons _) hrest))

/-- What is written does not depend on whether it was forced. -/
theorem replacement_of_written (hfree : MayWrite directory force s) (hkey : s.key = some key)
    (hmade : s.files.makeDirectories s.here directory = (.ok (), made))
    (hplace : made.directoryAt s.here directory = .ok place)
    (hwritten : WrittenUpTo id key made files place result) :
    Replacement directory id force s result files := by
  have hnul := Files.noNul_of_makeDirectories hmade
  have hgains := Files.gains_makeDirectories hmade
  have hafter : files.directoryAt s.here directory = .ok place := hwritten.filled.directoryAt hplace
  have hread : ∀ e ∈ front made place (pairTexts id key),
      files.read s.here (joinPath directory e.1) = .ok e.2 := fun e he =>
    read_filled hnul hplace hwritten.filled (isName_of_mem_pairTexts (mem_of_mem_front he)) he
  have houtside : ∀ q, (∀ e ∈ front made place (pairTexts id key), q ≠ place ++ [e.1]) →
      files.file? q = s.files.file? q := fun q hq => by
    rw [hwritten.filled.outside q hq, hgains.file?_eq]
  have hupTo := hwritten.filled.front_eq (pairTexts id key)
  refine ⟨?_, ?_, ?_, ?_, ?_, ?_⟩
  · rintro hforce ⟨path, hpath, hpresent⟩
    exact (hfree.not_present hforce hpath hpresent).elim
  · rintro rfl hsteady q hq
    refine houtside q fun e he heq => hq ?_
    rw [heq]
    exact file?_eq_none hfree hmade hplace hsteady (mem_of_mem_front he)
  · intro q hchanged
    refine ⟨place, hafter, ?_⟩
    by_contra hnone
    refine hchanged (houtside q fun e he heq => hnone ⟨e.1, ?_, heq⟩)
    exact List.mem_map_of_mem (f := Prod.fst) (mem_of_mem_front he)
  · exact .inr ⟨key, place, _, hkey, hafter, hupTo.symm, hread, houtside, hwritten.result_eq⟩
  · rintro rfl
    rw [hwritten.front_eq_self] at hread
    exact .inr ⟨key, hkey, hread⟩
  · intro hnone
    have hfree : ∀ name ∈ ["public.pem", "jwks.json"], made.node? (place ++ [name]) ≠ some .directory :=
      fun name hname => mt (hwritten.filled.directory_iff _).mpr (hnone place hafter name hname)
    rcases front_eq_nil_or_self hfree with hfront | hfront
    · rw [hfront] at houtside
      exact .inl fun q => houtside q fun e he => (List.not_mem_nil he).elim
    · rw [hfront] at hread
      exact .inr ⟨key, hkey, by rw [hwritten.result_eq, if_pos hfront], hread⟩

end

/-- No file is written where there is one in the way, nor where something else fails first. -/
theorem replacement_of_gains (hgains : s.files.Gains files)
    (hrefused : force = false →
      (∃ path ∈ (KeyFiles.under directory).all, s.files.contains s.here path = true) →
      result = .ok () ∧ files = s.files)
    (hok : result = .ok () → force = false ∧
      ∃ path ∈ (KeyFiles.under directory).all, s.files.contains s.here path = true) :
    Replacement directory id force s result files where
  refused := hrefused
  succeeded hdone := .inl (hok hdone)
  kept _ _ q _ := hgains.file?_eq q
  others q hchanged := (hchanged (hgains.file?_eq q)).elim
  upTo := .inl hgains.file?_eq
  whole _ := .inl hgains.file?_eq

/-- Whatever is there before, and however it ends. -/
theorem keygen_replacement (directory id : String) (force : Bool) (s : System) :
    Replacement directory id force s (s.run (keygen directory id force).run).1
      (s.run (keygen directory id force).run).2.files := by
  cases keygen_ending directory id force s with
  | refused hforce hpresent hresult hfiles =>
    exact replacement_of_gains (hfiles ▸ .refl _) (fun _ _ => ⟨hresult, hfiles⟩)
      fun _ => ⟨hforce, hpresent⟩
  | failed hfree hreason failure hresult hgains =>
    refine replacement_of_gains hgains (fun hforce ⟨path, hpath, hpresent⟩ => ?_) fun hok => ?_
    · exact (hfree.not_present hforce hpath hpresent).elim
    · cases hok.symm.trans hresult
  | written hfree key hkey made place hmade hplace hwritten =>
    exact replacement_of_written hfree hkey hmade hplace hwritten

namespace Sample

def system (files : Files) : System where
  files := files
  here := []
  environment := []
  servers := []
  input := ""
  output := []
  complaints := []
  entropy := []
  key := some ⟨35, 5, 5, 5, 7⟩

def old : Node := .file [111, 108, 100] false

/-- A key pair that is in use. -/
def keys : Files :=
  ⟨[(["keys"], .directory), (["keys", "private.pem"], old), (["keys", "public.pem"], old)]⟩

/-- A directory where the second file has to be. -/
def occupied : Files :=
  ⟨[(["private.pem"], old), (["public.pem"], .directory), (["jwks.json"], old)]⟩

end Sample

/-- A pair in use is kept where it is, and overwritten where it was not found before the way to it was
made; and it is replaced in part where there is a directory in the place of its second file. -/
theorem keygen_replacement_sample :
    (((Sample.system Sample.keys).run (keygen "keys" "k" false).run).1 = .ok () ∧
      ((Sample.system Sample.keys).run (keygen "keys" "k" false).run).2.files = Sample.keys) ∧
    (((Sample.system Sample.keys).run (keygen "missing/../keys" "k" false).run).1 = .ok () ∧
      ((Sample.system Sample.keys).run (keygen "missing/../keys" "k" false).run).2.files.file?
        ["keys", "private.pem"] ≠ Sample.keys.file? ["keys", "private.pem"]) ∧
    ((Sample.system Sample.occupied).run (keygen "." "k" true).run).1 = .error (.file .isDirectory) ∧
      ((Sample.system Sample.occupied).run (keygen "." "k" true).run).2.files.file? ["private.pem"] ≠
        Sample.occupied.file? ["private.pem"] ∧
      ((Sample.system Sample.occupied).run (keygen "." "k" true).run).2.files.file? ["jwks.json"] =
        Sample.occupied.file? ["jwks.json"] := by
  have hkept := (keygen_replacement "keys" "k" false (Sample.system Sample.keys)).refused rfl
    ⟨"keys/private.pem", by decide, by decide⟩
  exact ⟨hkept, by decide +kernel, by decide +kernel⟩

end SessionGate.Command
