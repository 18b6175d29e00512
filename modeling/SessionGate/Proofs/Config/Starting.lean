import SessionGate.Config.Default
import SessionGate.Config.Reader
import SessionGate.Proofs.Config.Filling
import SessionGate.Proofs.Toml.Lasting

/-!
The document that a deployment starts from, line by line. Five of its lines hold a placeholder: two set
a key, and three are comments that suggest a setting.
-/

namespace SessionGate.Config

open Toml (Line)

def secretPlaceholder : Placeholder := ⟨"AUTH_SECRET_KEY".toList, none⟩

def storePlaceholder : Placeholder := ⟨"REDIS_URL".toList, some "redis://127.0.0.1:6379".toList⟩

def keyIdPlaceholder : Placeholder := ⟨"JWK_KEY_ID".toList, some "primary".toList⟩

def issuerPlaceholder : Placeholder := ⟨"JWT_ISSUER_CLAIM".toList, none⟩

def audiencePlaceholder : Placeholder := ⟨"JWT_AUDIENCE_CLAIM".toList, none⟩

/-- Settings of tokens that are left to the deployment, with what is suggested for each. -/
def suggestions : List (String × Placeholder) :=
  [("key_id", keyIdPlaceholder), ("issuer", issuerPlaceholder), ("audience", audiencePlaceholder)]

def placeholders : List Placeholder :=
  secretPlaceholder :: storePlaceholder :: suggestions.map Prod.snd

def suggestion (shown : Placeholder → List Char) (s : String × Placeholder) : Line :=
  .comment (' ' :: s.1.toList ++ " = \"".toList ++ shown s.2 ++ ['"'])

def opening : List Line := [
  .comment " authgate configuration".toList,
  .blank,
  .header "server",
  .value "host" (.string "0.0.0.0"),
  .value "port" (.integer 8080),
  .comment " cors_origins = [\"http://localhost:3000\"]".toList,
  .blank,
  .header "token",
  .comment " \"shared_secret\" (HS256) or \"asymmetric\" (RS256 + JWKS)".toList,
  .value "mode" (.string "shared_secret")]

def between : List Line := [
  .value "leeway_seconds" (.integer 0),
  .blank,
  .comment " Keys rotated out of signing that must still verify outstanding tokens".toList,
  .comment " [[token.retired_keys]]".toList,
  .comment " key_id = \"2024-01\"".toList,
  .comment " public_key_path = \"./keys/2024-01.pub.pem\"".toList,
  .blank,
  .header "sessions",
  .quoted "backend" "memory".toList (some " or \"redis\"".toList)]

def closing : List Line := [
  .value "accept_legacy_sessions" (.boolean true),
  .blank,
  .header "users",
  .quoted "backend" "static".toList (some " or \"postgres\"".toList),
  .comment " postgres = \"host=localhost user=postgres password=postgres dbname=app\"".toList,
  .blank,
  .comment " [[users.accounts]]".toList,
  .comment " id = 1".toList,
  .comment " name = \"Admin\"".toList,
  .comment " email = \"admin@example.com\"".toList,
  .comment " password_hash = \"$2b$12$...\"  # authgate hash-password".toList,
  .comment " role = 1".toList,
  .comment " subscription_status = \"ACTIVE\"".toList,
  .blank,
  .header "gateway",
  .value "trust_userinfo_header" (.boolean false),
  .value "userinfo_header" (.string "X-Apigateway-Api-Userinfo"),
  .blank,
  .header "policy",
  .value "reveal_unknown_users" (.boolean false)]

/-- From the line that sets the secret to the one before the store is set. -/
def middle (shown : Placeholder → List Char) : List Line :=
  .quoted "secret" (shown secretPlaceholder) none ::
    .comment " private_key_path = \"./keys/private.pem\"".toList ::
      (suggestions.map (suggestion shown) ++ between)

def ending (shown : Placeholder → List Char) : List Line :=
  .quoted "redis_url" (shown storePlaceholder) none :: closing

def lines (shown : Placeholder → List Char) : List Line := opening ++ (middle shown ++ ending shown)

/-- The lines that no placeholder is in. -/
theorem sound_fixed : ∀ l ∈ .comment " private_key_path = \"./keys/private.pem\"".toList ::
    (opening ++ (between ++ closing)), l.Sound := by
  unfold opening between closing
  repeat rw [String.toList_ofList]
  decide +kernel

theorem sound_path : (Line.comment " private_key_path = \"./keys/private.pem\"".toList).Sound :=
  sound_fixed _ List.mem_cons_self

theorem sound_opening : ∀ l ∈ opening, l.Sound :=
  (List.forall_mem_append.mp (List.forall_mem_cons.mp sound_fixed).2).1

theorem sound_between : ∀ l ∈ between, l.Sound :=
  (List.forall_mem_append.mp (List.forall_mem_append.mp (List.forall_mem_cons.mp sound_fixed).2).2).1

theorem sound_closing : ∀ l ∈ closing, l.Sound :=
  (List.forall_mem_append.mp (List.forall_mem_append.mp (List.forall_mem_cons.mp sound_fixed).2).2).2

theorem sound_suggestion {shown : Placeholder → List Char} {s : String × Placeholder} (hs : s ∈ suggestions)
    (hquiet : ∀ c ∈ shown s.2, Toml.isForbidden c = false) : (suggestion shown s).Sound := by
  have hkeys : ∀ s ∈ suggestions, s.1.toList.all (!Toml.isForbidden ·) := by decide +kernel
  have hmark : ∀ c ∈ " = \"".toList, Toml.isForbidden c = false :=
    Toml.isForbidden_of_all (by decide +kernel)
  intro c hc
  simp only [List.cons_append, List.mem_cons, List.mem_append, List.not_mem_nil, or_false] at hc
  rcases hc with rfl | ((hc | hc) | hc) | rfl
  · decide
  · exact Toml.isForbidden_of_all (hkeys s hs) c hc
  · exact hmark c hc
  · exact hquiet c hc
  · decide

theorem wellFormed_placeholders : ∀ p ∈ placeholders, p.WellFormed := by
  have hchecked : ∀ p ∈ placeholders, p.name.head?.any isNameStart ∧ p.name.all isNameChar ∧
      '\x7d' ∉ p.fallback.getD [] := by
    decide +kernel
  exact fun p hp => Placeholder.wellFormed_of (hchecked p hp).1 (hchecked p hp).2.1 (hchecked p hp).2.2

theorem wellFormed_secret : secretPlaceholder.WellFormed := wellFormed_placeholders _ List.mem_cons_self

theorem wellFormed_store : storePlaceholder.WellFormed :=
  wellFormed_placeholders _ (List.mem_cons_of_mem _ List.mem_cons_self)

theorem wellFormed_suggestions : ∀ s ∈ suggestions, s.2.WellFormed := fun _ hs =>
  wellFormed_placeholders _ (List.mem_cons_of_mem _ (List.mem_cons_of_mem _ (List.mem_map_of_mem hs)))

theorem startingLines_eq :
    startingLines.map (fun line => line.toList ++ ['\n']) = (lines Placeholder.chars).map Line.chars := by
  unfold startingLines lines opening middle ending suggestions between closing secretPlaceholder
    storePlaceholder keyIdPlaceholder issuerPlaceholder audiencePlaceholder suggestion
  simp only [List.map_cons, List.map_nil]
  repeat rw [String.toList_ofList]
  rfl

theorem toList_startingText : startingText.toList = (lines Placeholder.chars).flatMap Line.chars := by
  have hline : ∀ line : String, (line ++ "\n").toList = line.toList ++ ['\n'] := fun line => by
    rw [String.toList_append]
    rfl
  rw [startingText, String.toList_join, List.flatMap_map]
  simp only [hline]
  rw [List.flatMap_def, startingLines_eq, ← List.flatMap_def]

section

variable {environment : String → Option String}

theorem fills_quoted {key : String} (hkey : (key.toList ++ [' ', '=', ' ', '"']).all Toml.isPlain)
    {p : Placeholder} (hp : p.WellFormed) : Fills environment (Line.quoted key p.chars none).chars
      (Line.quoted key (p.value environment) none).chars := by
  have hchars : ∀ text, (Line.quoted key text none).chars =
      (key.toList ++ [' ', '=', ' ', '"']) ++ text ++ ['"', '\n'] := fun text => by
    simp [Line.chars, Toml.noteChars]
  rw [hchars, hchars]
  exact ((Fills.of_plain hkey).append (.placeholder hp)).append (.of_plain (by decide))

theorem fills_suggestion {s : String × Placeholder}
    (hkey : ('#' :: ' ' :: s.1.toList ++ " = \"".toList).all Toml.isPlain) (hp : s.2.WellFormed) :
    Fills environment (suggestion Placeholder.chars s).chars
      (suggestion (·.value environment) s).chars := by
  have hchars : ∀ shown, (suggestion shown s).chars =
      ('#' :: ' ' :: s.1.toList ++ " = \"".toList) ++ shown s.2 ++ ['"', '\n'] := fun shown => by
    simp [suggestion, Line.chars]
  rw [hchars, hchars]
  exact ((Fills.of_plain hkey).append (.placeholder hp)).append (.of_plain (by decide))

theorem fills_startingText :
    Fills environment startingText.toList ((lines (·.value environment)).flatMap Line.chars) := by
  have hopening : Fills environment (opening.flatMap Line.chars) (opening.flatMap Line.chars) := by
    refine .plain ?_
    unfold opening
    repeat rw [String.toList_ofList]
    decide +kernel
  have hpath : Fills environment (Line.comment " private_key_path = \"./keys/private.pem\"".toList).chars
      (Line.comment " private_key_path = \"./keys/private.pem\"".toList).chars :=
    .of_plain (by decide +kernel)
  have hbetween : Fills environment (between.flatMap Line.chars) (between.flatMap Line.chars) := by
    refine .plain ?_
    unfold between
    repeat rw [String.toList_ofList]
    decide +kernel
  have hclosing : Fills environment (closing.flatMap Line.chars) (closing.flatMap Line.chars) := by
    refine .plain ?_
    unfold closing
    repeat rw [String.toList_ofList]
    decide +kernel
  have hsuggestions : Fills environment
      (suggestions.flatMap fun s => (suggestion Placeholder.chars s).chars)
      (suggestions.flatMap fun s => (suggestion (·.value environment) s).chars) := by
    have hkeys : ∀ s ∈ suggestions, ('#' :: ' ' :: s.1.toList ++ " = \"".toList).all Toml.isPlain := by
      decide +kernel
    exact .flatMap fun s hs => fills_suggestion (hkeys s hs) (wellFormed_suggestions s hs)
  rw [toList_startingText]
  simp only [lines, middle, ending, List.flatMap_append, List.flatMap_cons, List.flatMap_map]
  exact hopening.append (((fills_quoted (by decide +kernel) wellFormed_secret).append
    (hpath.append (hsuggestions.append hbetween))).append
      ((fills_quoted (by decide +kernel) wellFormed_store).append hclosing))

end

def serverTable : String × Toml.Node :=
  ("server", .table .declared [("host", .value (.string "0.0.0.0")), ("port", .value (.integer 8080))])

def tokenTable (secret : String) (issuer : Option String) : String × Toml.Node :=
  ("token", .table .declared ([("mode", .value (.string "shared_secret")),
    ("secret", .value (.string secret))] ++ (issuer.toList.map fun i => ("issuer", .value (.string i))) ++
      [("leeway_seconds", .value (.integer 0))]))

/-- The document before the secret is set. -/
def beforeSecret : Toml.Document where
  root := [serverTable] ++ [("token", .table .declared [("mode", .value (.string "shared_secret"))])]
  here := ["token"]

def beforeStore (secret : String) (issuer : Option String) : Toml.Document where
  root := [serverTable, tokenTable secret issuer] ++
    [("sessions", .table .declared [("backend", .value (.string "memory"))])]
  here := ["sessions"]

def finished (secret store : String) (issuer : Option String) : Toml.Document where
  root := [serverTable, tokenTable secret issuer,
    ("sessions", .table .declared [("backend", .value (.string "memory")),
      ("redis_url", .value (.string store)), ("accept_legacy_sessions", .value (.boolean true))]),
    ("users", .table .declared [("backend", .value (.string "static"))]),
    ("gateway", .table .declared [("trust_userinfo_header", .value (.boolean false)),
      ("userinfo_header", .value (.string "X-Apigateway-Api-Userinfo"))]),
    ("policy", .table .declared [("reveal_unknown_users", .value (.boolean false))])]
  here := ["policy"]

theorem ofToml?_finished (secret store : String) (issuer : Option String) :
    ofToml? (.table (Toml.entriesToToml (finished secret store issuer).root)) =
      some { tokens := { secret := some secret, issuer }, sessions := { redisUrl := store } } := by
  cases issuer <;> with_unfolding_all rfl

theorem reads_opening : Toml.Reads (opening.flatMap Line.chars) ⟨[], []⟩ beforeSecret :=
  Line.reads_all sound_opening (by with_unfolding_all rfl)

variable {shown : Placeholder → List Char}

theorem reads_middle (hsecret : ∀ c ∈ shown secretPlaceholder, Toml.isRaw c)
    (hquiet : ∀ s ∈ suggestions, ∀ c ∈ shown s.2, Toml.isForbidden c = false) :
    Toml.Reads ((middle shown).flatMap Line.chars) beforeSecret
      (beforeStore (String.ofList (shown secretPlaceholder)) none) := by
  refine Line.reads_all ?_ (by with_unfolding_all rfl)
  have hsuggestions : ∀ l ∈ suggestions.map (suggestion shown), l.Sound :=
    List.forall_mem_map.mpr fun s hs => sound_suggestion hs (hquiet s hs)
  exact List.forall_mem_cons.mpr ⟨.quoted (by decide) hsecret, List.forall_mem_cons.mpr
    ⟨sound_path, List.forall_mem_append.mpr ⟨hsuggestions, sound_between⟩⟩⟩

/-- A suggested issuer that ends its line and goes on with a setting is no comment any more. -/
theorem reads_middle_injected {issuer : List Char} (hissuer : ∀ c ∈ issuer, Toml.isRaw c)
    (hshown : shown issuerPlaceholder = '"' :: '\n' :: "issuer = \"".toList ++ issuer)
    (hsecret : ∀ c ∈ shown secretPlaceholder, Toml.isRaw c)
    (hquiet : ∀ s ∈ suggestions, s.2 ≠ issuerPlaceholder →
      ∀ c ∈ shown s.2, Toml.isForbidden c = false) :
    Toml.Reads ((middle shown).flatMap Line.chars) beforeSecret
      (beforeStore (String.ofList (shown secretPlaceholder)) (some (String.ofList issuer))) := by
  have hsplit : (suggestion shown ("issuer", issuerPlaceholder)).chars =
      (Line.comment " issuer = \"\"".toList).chars ++ (Line.quoted "issuer" issuer none).chars := by
    simp only [suggestion, Line.chars, Toml.noteChars, hshown]
    repeat rw [String.toList_ofList]
    simp
  have hlines : (middle shown).flatMap Line.chars =
      (.quoted "secret" (shown secretPlaceholder) none ::
        .comment " private_key_path = \"./keys/private.pem\"".toList ::
          suggestion shown ("key_id", keyIdPlaceholder) :: .comment " issuer = \"\"".toList ::
            .quoted "issuer" issuer none :: suggestion shown ("audience", audiencePlaceholder) ::
              between).flatMap Line.chars := by
    simp only [middle, suggestions, List.map_cons, List.map_nil, List.flatMap_append, List.flatMap_cons,
      List.flatMap_nil, hsplit, List.append_assoc, List.nil_append]
  rw [hlines]
  refine Line.reads_all ?_ (by with_unfolding_all rfl)
  have hempty : (Line.comment " issuer = \"\"".toList).Sound := by
    rw [String.toList_ofList]
    decide +kernel
  simp only [List.forall_mem_cons]
  refine ⟨.quoted (by decide) hsecret, sound_path, ?_, hempty, .quoted (by decide) hissuer, ?_,
    sound_between⟩
  · exact sound_suggestion List.mem_cons_self (hquiet _ List.mem_cons_self (by decide +kernel))
  · have hmem : ("audience", audiencePlaceholder) ∈ suggestions := by simp [suggestions]
    exact sound_suggestion hmem (hquiet _ hmem (by decide +kernel))

theorem reads_ending (secret : String) (issuer : Option String)
    (hstore : ∀ c ∈ shown storePlaceholder, Toml.isRaw c) :
    Toml.Reads ((ending shown).flatMap Line.chars) (beforeStore secret issuer)
      (finished secret (String.ofList (shown storePlaceholder)) issuer) :=
  Line.reads_all (List.forall_mem_cons.mpr ⟨.quoted (by decide) hstore, sound_closing⟩)
    (by with_unfolding_all rfl)

theorem lines_congr {shown shown' : Placeholder → List Char}
    (h : ∀ p ∈ placeholders, shown p = shown' p) : lines shown = lines shown' := by
  simp only [placeholders, List.forall_mem_cons, List.forall_mem_map] at h
  obtain ⟨hsecret, hstore, hsuggestions⟩ := h
  have hmap : suggestions.map (suggestion shown) = suggestions.map (suggestion shown') := by
    refine List.map_congr_left fun s hs => ?_
    rw [suggestion, suggestion, hsuggestions s hs]
  rw [lines, lines, middle, middle, ending, ending, hsecret, hstore, hmap]

theorem mem_lines {p : Placeholder} (hp : p ∈ placeholders) {c : Char} (hc : c ∈ shown p) :
    c ∈ (lines shown).flatMap Line.chars := by
  have hquoted : ∀ key, c ∈ (Line.quoted key (shown p) none).chars := fun key => by
    simp [Line.chars, hc]
  simp only [lines, middle, ending, List.flatMap_append, List.flatMap_cons, List.mem_append]
  rcases List.mem_cons.mp hp with rfl | hp
  · exact .inr (.inl (.inl (hquoted "secret")))
  · rcases List.mem_cons.mp hp with rfl | hp
    · exact .inr (.inr (.inl (hquoted "redis_url")))
    · obtain ⟨s, hs, rfl⟩ := List.mem_map.mp hp
      have hshown : c ∈ (suggestion shown s).chars := by simp [suggestion, Line.chars, hc]
      exact .inr (.inl (.inr (.inr (.inl
        (List.mem_flatMap.mpr ⟨_, List.mem_map_of_mem hs, hshown⟩)))))

theorem flatMap_lines (shown : Placeholder → List Char) : (lines shown).flatMap Line.chars =
    opening.flatMap Line.chars ++ ((middle shown).flatMap Line.chars ++
      (ending shown).flatMap Line.chars) := by
  rw [lines, List.flatMap_append, List.flatMap_append]

theorem head?_lines (shown : Placeholder → List Char) :
    ((lines shown).flatMap Line.chars).head? ≠ some '\ufeff' :=
  fun h => absurd (Option.some.inj h) (by decide)

theorem read?_lines (shown : Placeholder → List Char) :
    Toml.read? (String.ofList ((lines shown).flatMap Line.chars)) =
      (Toml.statements? (((lines shown).flatMap Line.chars).length + 2) ⟨[], []⟩
        ((lines shown).flatMap Line.chars)).map (Toml.entriesToToml ·.root) := by
  rw [Toml.read?_eq (by rw [String.toList_ofList]; exact head?_lines shown), String.toList_ofList]

theorem ofText?_of_reads {secret : String} {issuer : Option String}
    (h : Toml.Reads ((middle shown).flatMap Line.chars) beforeSecret (beforeStore secret issuer))
    (hstore : ∀ c ∈ shown storePlaceholder, Toml.isRaw c) :
    ofText? (String.ofList ((lines shown).flatMap Line.chars)) =
      some { tokens := { secret := some secret, issuer }
             sessions := { redisUrl := String.ofList (shown storePlaceholder) } } := by
  have hreads := reads_opening.append (h.append (reads_ending secret issuer hstore))
  rw [← flatMap_lines] at hreads
  rw [ofText?, Toml.read?_of_reads hreads (head?_lines shown)]
  exact ofToml?_finished _ _ _

theorem exists_document {c : Config}
    (h : ofText? (String.ofList ((lines shown).flatMap Line.chars)) = some c) :
    ∃ fuel d, Toml.statements? fuel beforeSecret
        ((middle shown).flatMap Line.chars ++ (ending shown).flatMap Line.chars) = some d ∧
      ((middle shown).flatMap Line.chars ++ (ending shown).flatMap Line.chars).length < fuel ∧
      ofToml? (.table (Toml.entriesToToml d.root)) = some c := by
  obtain ⟨entries, hentries, hc⟩ := Option.bind_eq_some_iff.mp h
  rw [read?_lines] at hentries
  obtain ⟨d, hd, rfl⟩ := Option.map_eq_some_iff.mp hentries
  rw [flatMap_lines] at hd
  obtain ⟨fuel, hfuel, hread⟩ := reads_opening
    ((middle shown).flatMap Line.chars ++ (ending shown).flatMap Line.chars)
    (((lines shown).flatMap Line.chars).length + 2) (by
      rw [← flatMap_lines]
      omega)
  rw [flatMap_lines] at hread
  exact ⟨fuel, d, hread.symm.trans hd, hfuel, hc⟩

/-- A string at the end of a path of two keys, as the reader of a configuration finds it. -/
theorem lookup_of_holds {origin : Toml.Origin} {root : Toml.Entries} {name key s : String}
    (h : Toml.Node.Holds (.string s) [.key name, .key key] (.table origin root)) :
    ∃ entries, (Toml.entriesToToml root).lookup name = some (.table entries) ∧
      entries.lookup key = some (.string s) := by
  obtain ⟨_, _, _, ⟨⟩, hname, _, inner, _, rfl, hkey, rfl⟩ := h
  exact ⟨Toml.entriesToToml inner, by rw [Toml.lookup_entriesToToml, hname]; rfl,
    by rw [Toml.lookup_entriesToToml, hkey]; rfl⟩

section

variable {entries inner : List (String × Toml)} {c : Config} {s : String}

theorem sections_of_ofToml? (h : ofToml? (.table entries) = some c) :
    orElse {} Tokens.read? (entries.lookup "token") = some c.tokens ∧
      orElse {} Sessions.read? (entries.lookup "sessions") = some c.sessions := by
  obtain ⟨server, -, h⟩ := Option.bind_eq_some_iff.mp h
  obtain ⟨tokens, htokens, h⟩ := Option.bind_eq_some_iff.mp h
  obtain ⟨sessions, hsessions, h⟩ := Option.bind_eq_some_iff.mp h
  obtain ⟨users, -, h⟩ := Option.bind_eq_some_iff.mp h
  obtain ⟨gateway, -, h⟩ := Option.bind_eq_some_iff.mp h
  obtain ⟨policy, -, h⟩ := Option.bind_eq_some_iff.mp h
  obtain rfl := Option.some.inj h
  exact ⟨htokens, hsessions⟩

theorem secret_of_read? {t : Tokens} (h : Tokens.read? (.table inner) = some t)
    (hsecret : inner.lookup "secret" = some (.string s)) : t.secret = some s := by
  obtain ⟨mode, -, h⟩ := Option.bind_eq_some_iff.mp h
  obtain ⟨secret, hread, h⟩ := Option.bind_eq_some_iff.mp h
  obtain ⟨path, -, h⟩ := Option.bind_eq_some_iff.mp h
  obtain ⟨keyId, -, h⟩ := Option.bind_eq_some_iff.mp h
  obtain ⟨retired, -, h⟩ := Option.bind_eq_some_iff.mp h
  obtain ⟨issuer, -, h⟩ := Option.bind_eq_some_iff.mp h
  obtain ⟨audience, -, h⟩ := Option.bind_eq_some_iff.mp h
  obtain ⟨leeway, -, h⟩ := Option.bind_eq_some_iff.mp h
  obtain rfl := Option.some.inj h
  change present? string? (inner.lookup "secret") = some secret at hread
  rw [hsecret] at hread
  exact (Option.some.inj hread).symm

theorem store_of_read? {t : Sessions} (h : Sessions.read? (.table inner) = some t)
    (hstore : inner.lookup "redis_url" = some (.string s)) : t.redisUrl = s := by
  obtain ⟨backend, -, h⟩ := Option.bind_eq_some_iff.mp h
  obtain ⟨url, hread, h⟩ := Option.bind_eq_some_iff.mp h
  obtain ⟨legacy, -, h⟩ := Option.bind_eq_some_iff.mp h
  obtain rfl := Option.some.inj h
  change orElse _ string? (inner.lookup "redis_url") = some url at hread
  rw [hstore] at hread
  exact (Option.some.inj hread).symm

end

/-- A text that a key is set to, and that the document in the end has at the key, stands there raw. -/
theorem raw_of_held {d d' : Toml.Document} {fuel : Nat} {key : String} {text between after : List Char}
    {m : Char} (hkey : Toml.isBareKey key) (hbetween : '"' ∉ between) (hm : Toml.isLoose m = false)
    (hread : Toml.statements? fuel d
      (key.toList ++ ' ' :: '=' :: ' ' :: '"' :: (text ++ '"' :: (between ++ m :: after))) = some d')
    (hheld : ∀ s root, Toml.assign d.here [key] (.string s) d.root = some root →
      Toml.Kept root d'.root → s = String.ofList text) : ∀ c ∈ text, Toml.isRaw c := by
  obtain ⟨s, rest, root, hstring, hassign, hkept⟩ := Toml.exists_string_of_quoted hkey hread
  obtain rfl := hheld s root hassign hkept
  exact Toml.raw_of_string? hbetween hm hstring

theorem raw_secret {c : Config}
    (h : ofText? (String.ofList ((lines shown).flatMap Line.chars)) = some c)
    (hsecret : c.tokens.secret = some (String.ofList (shown secretPlaceholder))) :
    ∀ ch ∈ shown secretPlaceholder, Toml.isRaw ch := by
  obtain ⟨fuel, d, hread, -, hc⟩ := exists_document h
  have hchars : (middle shown).flatMap Line.chars ++ (ending shown).flatMap Line.chars =
      "secret".toList ++ ' ' :: '=' :: ' ' :: '"' :: (shown secretPlaceholder ++ '"' :: (['\n'] ++ '#' ::
        (" private_key_path = \"./keys/private.pem\"".toList ++ '\n' ::
          ((suggestions.map (suggestion shown) ++ between).flatMap Line.chars ++
            (ending shown).flatMap Line.chars)))) := by
    simp only [middle, List.flatMap_cons, Line.chars, Toml.noteChars, List.append_assoc, List.cons_append,
      List.nil_append]
  rw [hchars] at hread
  refine raw_of_held (by decide) (by decide) (by decide) hread fun s root hassign hkept => ?_
  have hholds := Toml.Node.holds_of_assign (by decide) (by decide) hassign .declared
  obtain ⟨entries, htable, hlookup⟩ := lookup_of_holds (hkept _ .declared _ _ hholds)
  have hread := (sections_of_ofToml? hc).1
  rw [htable] at hread
  exact Option.some.inj ((secret_of_read? hread hlookup).symm.trans hsecret)

theorem raw_store {c : Config}
    (hraw : ∀ ch ∈ shown secretPlaceholder, Toml.isRaw ch)
    (hquiet : ∀ s ∈ suggestions, ∀ ch ∈ shown s.2, Toml.isForbidden ch = false)
    (h : ofText? (String.ofList ((lines shown).flatMap Line.chars)) = some c)
    (hstore : c.sessions.redisUrl = String.ofList (shown storePlaceholder)) :
    ∀ ch ∈ shown storePlaceholder, Toml.isRaw ch := by
  obtain ⟨fuel, d, hread, hfuel, hc⟩ := exists_document h
  obtain ⟨fuel', -, hsame⟩ := reads_middle hraw hquiet _ fuel hfuel
  rw [hsame] at hread
  have hchars : (ending shown).flatMap Line.chars =
      "redis_url".toList ++ ' ' :: '=' :: ' ' :: '"' ::
        (shown storePlaceholder ++ '"' :: (('\n' :: "accept".toList) ++ '_' ::
          ("legacy_sessions = true\n".toList ++ closing.tail.flatMap Line.chars))) := by
    have hline : (Line.value "accept_legacy_sessions" (.boolean true)).chars =
        "accept".toList ++ '_' :: "legacy_sessions = true\n".toList := by
      decide +kernel
    have hclosing : closing.flatMap Line.chars =
        "accept".toList ++ '_' :: "legacy_sessions = true\n".toList ++ closing.tail.flatMap Line.chars := by
      rw [← hline]
      rfl
    simp only [ending, List.flatMap_cons, hclosing, Line.chars, Toml.noteChars, List.append_assoc,
      List.cons_append, List.nil_append]
  rw [hchars] at hread
  refine raw_of_held (by decide) (by decide) (by decide) hread fun s root hassign hkept => ?_
  have hholds := Toml.Node.holds_of_assign (by with_unfolding_all rfl) (by decide) hassign .declared
  obtain ⟨entries, htable, hlookup⟩ := lookup_of_holds (hkept _ .declared _ _ hholds)
  have hread := (sections_of_ofToml? hc).2
  rw [htable] at hread
  exact (store_of_read? hread hlookup).symm.trans hstore

end SessionGate.Config
