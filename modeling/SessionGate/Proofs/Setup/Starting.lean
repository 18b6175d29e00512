import SessionGate.Command.Run
import SessionGate.Proofs.Config.Starting
import SessionGate.Proofs.Setup.Saving

/-!
The configuration of a new deployment. Its file takes a secret and a store from the environment by putting
their values between quotes as they are: they arrive unless a character of theirs means something else
there. Three more variables are put into comments, which they can end. Main statement: `starting`.
-/

namespace SessionGate.Setup

open Config

theorem run_init {s : Host.System} (h : s.files.contains s.here fileName = false) :
    s.run Command.init = match s.files.write s.here fileName startingText with
      | .ok files => (.ok (), { s with
          files
          output := s.output ++ ["✓ Created " ++ fileName] ++
            ["ℹ Set token.secret (or generate a key with 'authgate keygen')"
              ++ " and run 'authgate serve'"] })
      | .error fault => (.error (.file fault), s) := by
  have hthere : s.perform (.isThere fileName) = (false, s) := by
    change (s.files.contains s.here fileName, s) = _
    rw [h]
  have hwrite : s.perform (.write fileName startingText) =
      s.change (s.files.write s.here fileName startingText) := rfl
  refine (Host.System.run_ask (.isThere fileName) _ s).trans ?_
  rw [hthere]
  refine (Host.System.run_ask (.write fileName startingText) _ s).trans ?_
  rw [hwrite]
  cases s.files.write s.here fileName startingText <;> rfl

theorem read_of_init {s : Host.System} (hnew : s.files.contains s.here fileName = false)
    (h : (s.run Command.init).1 = .ok ()) :
    (s.run Command.init).2.files.read (s.run Command.init).2.here fileName = .ok startingText := by
  rw [run_init hnew] at h ⊢
  cases hwrite : s.files.write s.here fileName startingText with
  | error fault =>
    rw [hwrite] at h
    cases h
  | ok files => exact Host.Files.read_of_write hwrite

/-- The variables that the document has placeholders for. -/
def startingVariables : List String :=
  ["AUTH_SECRET_KEY", "REDIS_URL", "JWK_KEY_ID", "JWT_ISSUER_CLAIM", "JWT_AUDIENCE_CLAIM"]

theorem map_name_placeholders : placeholders.map (fun p => String.ofList p.name) = startingVariables :=
  rfl

section

variable {environment environment' : List (String × String)}

/-- Every character of a variable, if it is set, stands for itself between quotes. -/
def Raw (environment : List (String × String)) (name : String) : Prop :=
  ∀ text, environment.lookup name = some text → ∀ c ∈ text.toList, Toml.isRaw c

/-- A variable, if it is set, keeps to one line. -/
def Quiet (environment : List (String × String)) (name : String) : Prop :=
  ∀ text, environment.lookup name = some text → ∀ c ∈ text.toList, Toml.isForbidden c = false

theorem raw_of_unset {name : String} (h : environment.lookup name = none) : Raw environment name :=
  fun _ htext => by cases h.symm.trans htext

theorem quiet_of_unset {name : String} (h : environment.lookup name = none) :
    Quiet environment name :=
  fun _ htext => by cases h.symm.trans htext

/-- A configuration with what an environment has for its secret and its store. -/
def provided (environment : List (String × String)) (c : Config) : Config :=
  { c with
    tokens := { c.tokens with secret := (environment.lookup "AUTH_SECRET_KEY").or c.tokens.secret }
    sessions := { c.sessions with
      redisUrl := (environment.lookup "REDIS_URL").getD c.sessions.redisUrl } }

/-- The starting document loads as it does in no environment, with what is provided. -/
def Arrives (environment : List (String × String)) : Prop :=
  ∃ c, loaded [] startingText = .ok c ∧ loaded environment startingText = .ok (provided environment c)

/-- What stands for a placeholder in an environment. -/
def shownIn (environment : List (String × String)) (p : Placeholder) : List Char :=
  p.value fun name => environment.lookup name

theorem loaded_startingText (environment : List (String × String)) :
    loaded environment startingText =
      match ofText? (String.ofList ((lines (shownIn environment)).flatMap Toml.Line.chars)) with
      | some c => .ok c
      | none => .error .badConfig := by
  rw [loaded, interpolate, fills_startingText.expand_eq]
  rfl

theorem loaded_eq_ok_iff {c : Config} : loaded environment startingText = .ok c ↔
    ofText? (String.ofList ((lines (shownIn environment)).flatMap Toml.Line.chars)) = some c := by
  rw [loaded_startingText]
  split
  · next heq => rw [heq, Except.ok.injEq, Option.some.injEq]
  · next heq => simp [heq]

theorem forall_shownIn_iff {p : Placeholder} {name : String} (hname : String.ofList p.name = name)
    {q : Char → Prop} (hfallback : ∀ c ∈ p.fallback.getD [], q c) :
    (∀ c ∈ shownIn environment p, q c) ↔
      ∀ text, environment.lookup name = some text → ∀ c ∈ text.toList, q c := by
  subst hname
  refine ⟨fun h text htext => ?_, fun h => Placeholder.forall_mem_value hfallback h⟩
  rwa [shownIn, Placeholder.value, htext] at h

theorem raw_secret_iff : (∀ c ∈ shownIn environment secretPlaceholder, Toml.isRaw c) ↔
    Raw environment "AUTH_SECRET_KEY" :=
  forall_shownIn_iff String.ofList_toList (List.forall_mem_nil _)

theorem raw_store_iff : (∀ c ∈ shownIn environment storePlaceholder, Toml.isRaw c) ↔
    Raw environment "REDIS_URL" :=
  forall_shownIn_iff String.ofList_toList (List.all_eq_true.mp rfl)

theorem ofList_shownIn {p : Placeholder} {name : String} (hname : String.ofList p.name = name) :
    String.ofList (shownIn environment p) =
      (environment.lookup name).getD (String.ofList (p.fallback.getD [])) := by
  rw [shownIn, Placeholder.ofList_value, hname]

theorem ofList_secret : String.ofList (shownIn environment secretPlaceholder) =
    (environment.lookup "AUTH_SECRET_KEY").getD "" :=
  ofList_shownIn String.ofList_toList

theorem ofList_store : String.ofList (shownIn environment storePlaceholder) =
    (environment.lookup "REDIS_URL").getD "redis://127.0.0.1:6379" :=
  (ofList_shownIn String.ofList_toList).trans (congrArg (Option.getD _) String.ofList_toList)

/-- Every suggestion stays a comment. -/
def Suggests (environment : List (String × String)) : Prop :=
  ∀ name ∈ ["JWK_KEY_ID", "JWT_ISSUER_CLAIM", "JWT_AUDIENCE_CLAIM"], Quiet environment name

theorem quiet_suggestion {s : String × Placeholder} (hs : s ∈ suggestions)
    (h : Quiet environment (String.ofList s.2.name)) :
    ∀ c ∈ shownIn environment s.2, Toml.isForbidden c = false := by
  have hfallbacks : ∀ s ∈ suggestions, (s.2.fallback.getD []).all (!Toml.isForbidden ·) := by
    decide
  exact (forall_shownIn_iff rfl (Toml.isForbidden_of_all (hfallbacks s hs))).mpr h

theorem quiet_suggestions (h : Suggests environment) :
    ∀ s ∈ suggestions, ∀ c ∈ shownIn environment s.2, Toml.isForbidden c = false := by
  have hnames : ∀ s ∈ suggestions,
      String.ofList s.2.name ∈ ["JWK_KEY_ID", "JWT_ISSUER_CLAIM", "JWT_AUDIENCE_CLAIM"] := by
    decide
  exact fun s hs => quiet_suggestion hs (h _ (hnames s hs))

theorem loaded_of_raw (hquiet : Suggests environment) (hsecret : Raw environment "AUTH_SECRET_KEY")
    (hstore : Raw environment "REDIS_URL") : loaded environment startingText = .ok
      { tokens := { secret := some ((environment.lookup "AUTH_SECRET_KEY").getD "") }
        sessions := {
          redisUrl := (environment.lookup "REDIS_URL").getD "redis://127.0.0.1:6379" } } := by
  rw [loaded_eq_ok_iff, ofText?_of_reads
    (reads_middle (raw_secret_iff.mpr hsecret) (quiet_suggestions hquiet)) (raw_store_iff.mpr hstore),
    ofList_secret, ofList_store]

/-- The configuration where no variable is set. -/
theorem loaded_nil : loaded [] startingText = .ok { tokens := { secret := some "" } } :=
  loaded_of_raw (fun _ _ => quiet_of_unset rfl) (raw_of_unset rfl) (raw_of_unset rfl)

theorem provided_bare (environment : List (String × String)) :
    provided environment { tokens := { secret := some "" } } =
      { tokens := { secret := some ((environment.lookup "AUTH_SECRET_KEY").getD "") }
        sessions := {
          redisUrl := (environment.lookup "REDIS_URL").getD "redis://127.0.0.1:6379" } } := by
  rw [provided]
  cases environment.lookup "AUTH_SECRET_KEY" <;> rfl

theorem arrives_iff_loaded : Arrives environment ↔
    loaded environment startingText = .ok (provided environment { tokens := { secret := some "" } }) := by
  refine ⟨?_, fun h => ⟨_, loaded_nil, h⟩⟩
  rintro ⟨c, hbare, h⟩
  obtain rfl := Except.ok.inj (loaded_nil.symm.trans hbare)
  exact h

/-- A secret that is set as it is has no character that means something else. -/
theorem raw_of_secret {c : Config} (h : loaded environment startingText = .ok c)
    (hsecret : c.tokens.secret = some ((environment.lookup "AUTH_SECRET_KEY").getD "")) :
    Raw environment "AUTH_SECRET_KEY" := by
  rw [← ofList_secret] at hsecret
  exact raw_secret_iff.mp (raw_secret (loaded_eq_ok_iff.mp h) hsecret)

theorem arrives_iff (hquiet : Suggests environment) : Arrives environment ↔
    Raw environment "AUTH_SECRET_KEY" ∧ Raw environment "REDIS_URL" := by
  rw [arrives_iff_loaded, provided_bare]
  refine ⟨fun h => ?_, fun h => loaded_of_raw hquiet h.1 h.2⟩
  have hsecret := raw_of_secret h rfl
  refine ⟨hsecret, raw_store_iff.mp ?_⟩
  exact raw_store (raw_secret_iff.mpr hsecret) (quiet_suggestions hquiet) (loaded_eq_ok_iff.mp h)
    ofList_store.symm

theorem exists_placeholder {name : String} (h : name ∈ startingVariables) :
    ∃ p ∈ placeholders, String.ofList p.name = name := by
  rw [← map_name_placeholders] at h
  exact List.mem_map.mp h

/-- A control character, in whichever variable, makes the text no document. -/
theorem loaded_of_barred {name text : String} (hname : name ∈ startingVariables)
    (htext : environment.lookup name = some text) {c : Char} (hc : c ∈ text.toList)
    (hbarred : Toml.isBarred c) : loaded environment startingText = .error .badConfig := by
  obtain ⟨p, hp, rfl⟩ := exists_placeholder hname
  have hshown : c ∈ shownIn environment p := by
    rw [shownIn, Placeholder.value, htext]
    exact hc
  rw [loaded_startingText]
  split
  · next c' hread =>
    obtain ⟨entries, hentries, -⟩ := Option.bind_eq_some_iff.mp hread
    have hclean := Toml.clean_of_read? hentries
    rw [String.toList_ofList] at hclean
    cases hbarred.symm.trans (hclean c (mem_lines hp hshown))
  · rfl

theorem loaded_congr
    (h : ∀ name ∈ startingVariables, environment.lookup name = environment'.lookup name) :
    loaded environment startingText = loaded environment' startingText := by
  have hshown : ∀ p ∈ placeholders, shownIn environment p = shownIn environment' p := by
    intro p hp
    have hname : String.ofList p.name ∈ startingVariables :=
      map_name_placeholders ▸ List.mem_map_of_mem hp
    rw [shownIn, shownIn, Placeholder.value, Placeholder.value, h _ hname]
  rw [loaded_startingText, loaded_startingText, lines_congr hshown]

end

/-- An issuer that is only suggested is set, if the suggestion ends its line before it. -/
theorem loaded_injected {issuer : String} (hissuer : ∀ c ∈ issuer.toList, Toml.isRaw c) :
    loaded [("JWT_ISSUER_CLAIM", "\"\nissuer = \"" ++ issuer)] startingText =
      .ok { tokens := { secret := some "", issuer := some issuer } } := by
  generalize henvironment : [("JWT_ISSUER_CLAIM", "\"\nissuer = \"" ++ issuer)] = environment
  have hother : ∀ name, name ≠ "JWT_ISSUER_CLAIM" → environment.lookup name = none := by
    rintro name hname
    rw [← henvironment, List.lookup_cons, beq_eq_false_iff_ne.mpr hname]
    rfl
  have hsecret := raw_secret_iff.mpr (raw_of_unset (hother "AUTH_SECRET_KEY" (by decide)))
  have hstore := raw_store_iff.mpr (raw_of_unset (hother "REDIS_URL" (by decide)))
  have hnames : ∀ s ∈ suggestions, s.2 ≠ issuerPlaceholder →
      String.ofList s.2.name ≠ "JWT_ISSUER_CLAIM" := by
    decide
  have hquiet : ∀ s ∈ suggestions, s.2 ≠ issuerPlaceholder →
      ∀ c ∈ shownIn environment s.2, Toml.isForbidden c = false :=
    fun s hs hne => quiet_suggestion hs (quiet_of_unset (hother _ (hnames s hs hne)))
  have hshown : shownIn environment issuerPlaceholder =
      '"' :: '\n' :: "issuer = \"".toList ++ issuer.toList := by
    have hlookup : environment.lookup (String.ofList issuerPlaceholder.name) =
        some ("\"\nissuer = \"" ++ issuer) := by
      rw [show String.ofList issuerPlaceholder.name = "JWT_ISSUER_CLAIM" from String.ofList_toList,
        ← henvironment, List.lookup_cons_self]
    rw [shownIn, Placeholder.value, hlookup]
    exact String.toList_append
  rw [loaded_eq_ok_iff, ofText?_of_reads (reads_middle_injected hissuer hshown hsecret hquiet) hstore,
    ofList_secret, ofList_store, hother _ (by decide), hother _ (by decide), String.ofList_toList]
  rfl

/-- How a file that holds the starting document loads. -/
structure Starting (s : Host.System) : Prop where
  answer : ∀ environment, { s with environment }.run (load (some fileName)) =
    (loaded environment startingText, { s with environment })
  /-- Values arrive if and only if they are raw, where the suggestions stay comments. -/
  arrives_iff : ∀ environment, Suggests environment →
    (Arrives environment ↔ Raw environment "AUTH_SECRET_KEY" ∧ Raw environment "REDIS_URL")
  /-- No secret arrives otherwise, whatever the suggestions are. -/
  raw_of_secret : ∀ environment c, loaded environment startingText = .ok c →
    c.tokens.secret = some ((environment.lookup "AUTH_SECRET_KEY").getD "") →
    Raw environment "AUTH_SECRET_KEY"
  barred : ∀ environment, ∀ name ∈ startingVariables, ∀ text, environment.lookup name = some text →
    (∃ c ∈ text.toList, Toml.isBarred c) → loaded environment startingText = .error .badConfig
  /-- A suggestion that ends its line can set what was to stay a comment. -/
  injected : ∀ issuer : String, (∀ c ∈ issuer.toList, Toml.isRaw c) →
    loaded [("JWT_ISSUER_CLAIM", "\"\nissuer = \"" ++ issuer)] startingText =
      .ok { tokens := { secret := some "", issuer := some issuer } }
  blind : ∀ environment environment',
    (∀ name ∈ startingVariables, environment.lookup name = environment'.lookup name) →
    loaded environment startingText = loaded environment' startingText

theorem starting {s : Host.System} (hnew : s.files.contains s.here fileName = false)
    (h : (s.run Command.init).1 = .ok ()) : Starting (s.run Command.init).2 where
  answer _ := run_load (read_of_init hnew h)
  arrives_iff _ := arrives_iff
  raw_of_secret _ _ := raw_of_secret
  barred _ _ hname _ htext := fun ⟨_, hc, hbarred⟩ => loaded_of_barred hname htext hc hbarred
  injected _ := loaded_injected
  blind _ _ := loaded_congr

/-- An environment with just a secret and a store. -/
def pair (secret store : String) : List (String × String) :=
  [("AUTH_SECRET_KEY", secret), ("REDIS_URL", store)]

theorem arrives_pair_iff {s : Host.System} (h : Starting s) {secret store : String} :
    Arrives (pair secret store) ↔
      (∀ c ∈ secret.toList, Toml.isRaw c) ∧ ∀ c ∈ store.toList, Toml.isRaw c := by
  have hquiet : Suggests (pair secret store) := by
    intro name hname text htext
    simp only [List.mem_cons, List.not_mem_nil, or_false] at hname
    rcases hname with rfl | rfl | rfl <;> cases htext
  have hsecret : (pair secret store).lookup "AUTH_SECRET_KEY" = some secret := rfl
  have hstore : (pair secret store).lookup "REDIS_URL" = some store := rfl
  rw [h.arrives_iff _ hquiet, Raw, Raw, hsecret, hstore]
  simp

/-- A value that arrives, one that does not for a backslash in it, and a setting out of a comment. -/
theorem starting_sample :
    Sample.system.files.contains Sample.system.here fileName = false ∧
      (Sample.system.run Command.init).1 = .ok () ∧
      Arrives (pair "0123456789abcdef # 0123456789" "redis://cache:6379/1") ∧
      ¬ Arrives (pair "0123456789abcdef\\t0123456789" "redis://cache:6379/1") ∧
      ({ (Sample.system.run Command.init).2 with
        environment := [("JWT_ISSUER_CLAIM", "\"\nissuer = \"elsewhere")] }.run
          (load (some fileName))).1 =
        .ok { tokens := { secret := some "", issuer := some "elsewhere" } } := by
  have hnew : Sample.system.files.contains Sample.system.here fileName = false := by decide +kernel
  have hinit : (Sample.system.run Command.init).1 = .ok () := by
    rw [run_init hnew]
    rfl
  have h := starting hnew hinit
  refine ⟨hnew, hinit, ?_, ?_, ?_⟩
  · exact (arrives_pair_iff h).mpr
      ⟨List.all_eq_true.mp (by decide +kernel), List.all_eq_true.mp (by decide +kernel)⟩
  · intro harrives
    have hraw := ((arrives_pair_iff h).mp harrives).1 '\\' (by decide +kernel)
    cases hraw
  · rw [h.answer]
    exact h.injected "elsewhere" (List.all_eq_true.mp (by decide +kernel))

end SessionGate.Setup
