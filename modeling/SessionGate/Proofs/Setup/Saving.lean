import SessionGate.Proofs.Config.Texts
import SessionGate.Proofs.Host.Asking
import SessionGate.Proofs.Host.Files
import SessionGate.Proofs.Toml.Clean
import SessionGate.Setup.Loading

/-!
A configuration that was saved comes back from its file, unless a placeholder stands in the text that
was written: the text goes out as it is, and every placeholder in it is replaced on the way in. Main
statement: `reload`.
-/

namespace SessionGate.Setup

open Config

variable {c : Config} {path : String} {s : Host.System}

theorem run_save (c : Config) (path : String) (s : Host.System) :
    s.run (save c path) =
      ((s.change (s.files.write s.here path c.toText)).1.mapError .file,
        (s.change (s.files.write s.here path c.toText)).2) := rfl

/-- What a file with this text loads as. -/
def loaded (environment : List (String × String)) (text : String) : Except Fault Config :=
  match ofText? (interpolate (fun name => environment.lookup name) text) with
  | some c => .ok c
  | none => .error .badConfig

theorem run_load {text : String} (h : s.files.read s.here path = .ok text) :
    s.run (load (some path)) = (loaded s.environment text, s) := by
  rw [load, loadFrom]
  refine (Host.System.run_ask (.read path) _ s).trans ?_
  rw [Host.System.perform_read h]
  refine (Host.System.run_ask .environment _ s).trans ?_
  unfold loaded
  dsimp only [Host.System.perform, Program.andThen, Function.comp, ExceptT.bindCont]
  cases ofText? (interpolate (fun name => s.environment.lookup name) text) <;> rfl

theorem read_of_save (h : (s.run (save c path)).1 = .ok ()) :
    (s.run (save c path)).2.files.read (s.run (save c path)).2.here path = .ok c.toText := by
  rw [run_save] at h ⊢
  cases hwrite : s.files.write s.here path c.toText with
  | error fault =>
    rw [hwrite] at h
    cases h
  | ok files => exact Host.Files.read_of_write hwrite

theorem save_ok {place : Host.Place} (hresolve : s.files.resolve s.here path = .ok place)
    (hplace : s.files.node? place ≠ some .directory) : (s.run (save c path)).1 = .ok () := by
  rw [run_save, Host.Files.write, hresolve]
  dsimp only [bind, Except.bind]
  split
  · next hnode => exact absurd hnode hplace
  · rfl
  · rfl

theorem loaded_toText {environment : List (String × String)}
    (h : interpolate (fun name => environment.lookup name) c.toText = c.toText) :
    loaded environment c.toText = .ok c := by
  rw [loaded, h, ofText?_toText]

/-- An environment that has a control character for the first placeholder makes the text no document. -/
theorem exists_loaded_ne {text : String} (h : HoldsPlaceholder text) (c : Config) :
    ∃ environment, loaded environment text ≠ .ok c := by
  obtain ⟨p, hp, hwithin⟩ := h
  obtain ⟨name, hmark⟩ := exists_mem_expand hp hwithin '\x01'
  refine ⟨[(name, String.singleton '\x01')], fun hloaded => ?_⟩
  unfold loaded at hloaded
  split at hloaded
  · next c' htext =>
    obtain ⟨entries, hread, -⟩ := Option.bind_eq_some_iff.mp htext
    have hclean := Toml.clean_of_read? hread
    rw [interpolate, String.toList_ofList] at hclean
    exact absurd (hclean _ hmark) (by decide)
  · cases hloaded

def ComesBack (c : Config) (path : String) (s : Host.System) : Prop :=
  ∀ environment, { s with environment }.run (load (some path)) = (.ok c, { s with environment })

/-- How a configuration loads from where it was saved. Only what the environment puts into its text
can make it another. -/
structure Reload (c : Config) (path : String) (s : Host.System) : Prop where
  written : s.files.read s.here path = .ok c.toText
  parses : ofText? c.toText = some c
  answer : ∀ environment,
    { s with environment }.run (load (some path)) = (loaded environment c.toText, { s with environment })
  comesBack_iff : ComesBack c path s ↔ ¬ HoldsPlaceholder c.toText
  plain : c.Plain → ComesBack c path s

theorem reload (h : (s.run (save c path)).1 = .ok ()) : Reload c path (s.run (save c path)).2 := by
  have hwritten := read_of_save h
  have hanswer : ∀ environment,
      { (s.run (save c path)).2 with environment }.run (load (some path)) =
        (loaded environment c.toText, { (s.run (save c path)).2 with environment }) :=
    fun environment => run_load hwritten
  have hback : ¬ HoldsPlaceholder c.toText → ComesBack c path (s.run (save c path)).2 := by
    intro hnone environment
    rw [hanswer, loaded_toText (interpolate_eq_self hnone)]
  have hholds : ComesBack c path (s.run (save c path)).2 → ¬ HoldsPlaceholder c.toText := by
    intro hback hholds
    obtain ⟨environment, hne⟩ := exists_loaded_ne hholds c
    have hsame := (hanswer environment).symm.trans (hback environment)
    exact hne (Prod.mk.inj hsame).1
  exact ⟨hwritten, ofText?_toText c, hanswer, ⟨hholds, hback⟩,
    fun hplain => hback (not_holdsPlaceholder_toText hplain)⟩

namespace Sample

def system : Host.System where
  files := ⟨[]⟩
  here := []
  environment := []
  servers := []
  input := ""
  output := []
  complaints := []
  entropy := []
  key := none

def config : Config where
  server := { port := 9999, corsOrigins := ["https://a.example", "\"quoted\"\nand 'more'"] }
  tokens := {
    keyId := some "k1"
    retiredKeys := [{ id := "2024-01", path := "keys/2024-01.pem" }]
    leewaySeconds := 30 }
  users := {
    accounts := [{
      id := 7, name := "Ada", email := "ada@example.org", passwordHash := "$2b$04$w7UlcSqa5pAATAV1"
      role := .admin, subscription := .active }] }

/-- Its host is the name of a variable, as if it were still to be replaced. -/
def opened : Config where
  server := { host := "$\x7bB\x7d" }

end Sample

theorem holdsPlaceholder_opened : HoldsPlaceholder Sample.opened.toText := by
  refine ⟨{ name := ['B'], fallback := none },
    ⟨⟨'B', rfl, by decide⟩, List.all_eq_true.mp rfl, fun _ h => ?_⟩, ?_⟩
  · cases h
  · rw [toText, Toml.writeSections, String.toList_ofList]
    decide +kernel

theorem reload_sample :
    ((Sample.system.run (save Sample.config fileName)).1 = .ok () ∧
      ComesBack Sample.config fileName (Sample.system.run (save Sample.config fileName)).2) ∧
    (Sample.system.run (save Sample.opened fileName)).1 = .ok () ∧
      ¬ ComesBack Sample.opened fileName (Sample.system.run (save Sample.opened fileName)).2 := by
  have hsaved : ∀ c, (Sample.system.run (save c fileName)).1 = .ok () := fun c =>
    @save_ok c _ _ [fileName] rfl (by rintro ⟨⟩)
  have hplain : Sample.config.Plain := by
    unfold Config.Plain
    decide +kernel
  exact ⟨⟨hsaved _, (reload (hsaved Sample.config)).plain hplain⟩, hsaved _,
    fun hback => (reload (hsaved Sample.opened)).comesBack_iff.mp hback holdsPlaceholder_opened⟩

end SessionGate.Setup
