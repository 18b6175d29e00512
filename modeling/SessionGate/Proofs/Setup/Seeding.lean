import SessionGate.Command.Run
import SessionGate.Proofs.Config.Accounts
import SessionGate.Proofs.Directory.Accounts
import SessionGate.Proofs.Service.Login
import SessionGate.Proofs.Setup.Saving

/-!
A hash that was made for a configuration opens the account that it is put into. A hash is full of dollar
signs, but none of them has a brace after it, nor does any text around the hash give it one: the environment
leaves the file as it is, and its reader takes the hash for what it is. Main statement: `seeding`.
-/

namespace SessionGate.Password

open Toml (NoOpening Shut shut_dollar)

theorem isPlain_of_crypt : Base64.crypt.chars.all Toml.isPlain := rfl

theorem isRaw_of_crypt : Base64.crypt.chars.all Toml.isRaw := rfl

variable {password stored : String}

theorem Hashed.noOpening (h : Hashed password stored) {front back : List Char} (hfront : NoOpening front)
    (hback : NoOpening back) : NoOpening (front ++ stored.toList ++ back) := by
  obtain ⟨tail, hchars, hlength, htail⟩ := h.exists_tail
  have hplain : tail.all Toml.isPlain :=
    List.all_eq_true.mpr fun c hc => List.all_eq_true.mp isPlain_of_crypt c (htail c hc)
  have hne : tail ≠ [] := List.ne_nil_of_length_eq_add_one hlength
  have hthird : Shut ('$' :: (tail ++ back)) := shut_dollar hne hplain hback
  have hsecond : Shut ('$' :: (['1', '2'] ++ '$' :: (tail ++ back))) :=
    shut_dollar (List.cons_ne_nil _ _) (by decide) hthird.noOpening
  have hfirst : Shut ('$' :: (['2', 'b'] ++ '$' :: (['1', '2'] ++ '$' :: (tail ++ back)))) :=
    shut_dollar (List.cons_ne_nil _ _) (by decide) hsecond.noOpening
  rw [hchars, List.append_assoc]
  exact Toml.noOpening_append hfront hfirst

theorem Hashed.isRaw (h : Hashed password stored) : ∀ c ∈ stored.toList, Toml.isRaw c := by
  obtain ⟨tail, hchars, -, htail⟩ := h.exists_tail
  rw [hchars]
  intro c hc
  simp only [List.mem_cons, List.mem_append, List.not_mem_nil, or_false] at hc
  rcases hc with rfl | (rfl | rfl) | rfl | (rfl | rfl) | rfl | hc
  all_goals first | decide | exact List.all_eq_true.mp isRaw_of_crypt c (htail c hc)

theorem Hashed.ne_nil (h : Hashed password stored) : stored.toList ≠ [] := by
  obtain ⟨tail, hchars, -⟩ := h.exists_tail
  rw [hchars]
  exact List.cons_ne_nil _ _

end SessionGate.Password

namespace SessionGate.Setup

open Config Host

variable {password hash : String} {front back : List Char} {c : Config} {a : Account} {s s' : System}

/-- The password that is hashed: the one that was given, or a line of the input. -/
def passwordOf (given : Option String) (s : System) : String :=
  given.getD (Command.withoutLineEnd (System.firstLine s.input))

theorem run_printDrawn (f : List UInt8 → String) (s : System) :
    s.run (Command.ask (.entropy 16) >>= fun salt => Command.ask (.print (f salt))).run =
      (.ok (), { s with output := s.output ++ [f (s.entropy.take 16)] }) :=
  (System.run_bind_ok _ (System.run_lift (.entropy 16) rfl)).trans (System.run_lift _ rfl)

theorem run_hashPassword {given : Option String} (hpassword : passwordOf given s = password)
    (hne : password ≠ "") : s.run (Command.hashPassword given).run =
      (.ok (), { s with output := s.output ++ [Password.hash password (s.entropy.take 16)] }) := by
  unfold Command.hashPassword
  cases given with
  | none =>
    have hline : s.run (Command.withoutLineEnd <$> Command.ask .inputLine : Command.Run String) =
        (.ok password, s) := congrArg (fun password => (Except.ok password, s)) hpassword
    refine (System.run_bind_ok _ hline).trans ?_
    dsimp only
    rw [if_neg hne]
    exact run_printDrawn (Password.hash password) s
  | some given =>
    obtain rfl : given = password := hpassword
    have hpure : s.run (pure given : Command.Run String) = (.ok given, s) := rfl
    refine (System.run_bind_ok _ hpure).trans ?_
    dsimp only
    rw [if_neg hne]
    exact run_printDrawn (Password.hash given) s

/-- What the command prints is such a hash. -/
theorem exists_hashed_of_run {given : Option String} (hne : passwordOf given s ≠ "")
    (hentropy : 16 ≤ s.entropy.length) : ∃ stored, Password.Hashed (passwordOf given s) stored ∧
      s.run (Command.hashPassword given).run = (.ok (), { s with output := s.output ++ [stored] }) :=
  ⟨_, ⟨s.entropy.take 16, by rw [List.length_take, Nat.min_eq_left hentropy], rfl⟩,
    run_hashPassword rfl hne⟩

/-- A hash, and the rest of a file before and after it. -/
def seededText (hash : String) (front back : List Char) : String :=
  String.ofList (front ++ hash.toList ++ back)

theorem interpolate_seededText (h : Password.Hashed password hash) (hfront : ¬ ['$', '\x7b'] <:+: front)
    (hback : ¬ ['$', '\x7b'] <:+: back) (environment : String → Option String) :
    interpolate environment (seededText hash front back) = seededText hash front back := by
  refine interpolate_eq_self ?_
  rintro ⟨p, -, hwithin⟩
  have hopening : ['$', '\x7b'] <:+: p.chars := ⟨[], _, rfl⟩
  rw [seededText, String.toList_ofList] at hwithin
  exact Toml.noOpening_iff.mp
    (h.noOpening (Toml.noOpening_iff.mpr hfront) (Toml.noOpening_iff.mpr hback)) (hopening.trans hwithin)

theorem directory_of_start {t : Started} (hstatic : c.users.backend = .static)
    (h : s.run (start c).run = (.ok t, s')) : t.directory = Directory.ofAccounts c.users.accounts := by
  obtain ⟨authority, after, -, h⟩ := System.exists_of_run_bind h
  obtain ⟨_, after, -, h⟩ := System.exists_of_run_bind h
  obtain ⟨directory, after, hdirectory, h⟩ := System.exists_of_run_bind h
  obtain ⟨header, after, -, h⟩ := System.exists_of_run_bind h
  obtain rfl := Except.ok.inj (Prod.mk.inj h).1
  rw [openDirectory, hstatic] at hdirectory
  exact (Except.ok.inj (Prod.mk.inj hdirectory).1).symm

theorem find_listed {w : World} (haccounts : c.users.accounts = [a])
    (hdirectory : w.directory = Directory.ofAccounts c.users.accounts) (hworks : w.faults.find = none) :
    w.find a.email = .ok (some a) := by
  rw [World.find, hworks, hdirectory, haccounts]
  dsimp only
  rw [(Directory.ofAccounts_lastWins [a]).anyCase [] a [] rfl (List.forall_mem_nil _) a.email rfl]

/-- A valid file with one account, whose hash is set on a line of its own or was put somewhere else. -/
structure Lists (hash : String) (front back : List Char) (c : Config) (a : Account) : Prop where
  valid : ofText? (seededText hash front back) = some c
  only : c.users.accounts = [a]
  set : OnLine front back ∨ a.passwordHash = hash

/-- What becomes of a hash in the file of a deployment. -/
structure Seeded (password hash : String) (front back : List Char) (c : Config) (a : Account) : Prop where
  kept : a.passwordHash = hash
  loads : ∀ (s : System) path, s.files.read s.here path = .ok (seededText hash front back) →
    s.run (load (some path)) = (.ok c, s)
  directory : c.users.backend = .static → ∀ (s s' : System) (t : Started), s.run (start c).run = (.ok t, s') →
    t.directory = Directory.ofAccounts c.users.accounts
  opens : ∀ w : World, w.directory = Directory.ofAccounts c.users.accounts → w.faults.find = none →
    w.runServe (Deployment.authenticate a.email password) = (.ok (.ok a.profile), w)

/-- Whatever the environment, a hash is loaded as it was made, and its password logs in. -/
theorem seeding (hhash : Password.Hashed password hash) (hlists : Lists hash front back c a)
    (hfront : ¬ ['$', '\x7b'] <:+: front) (hback : ¬ ['$', '\x7b'] <:+: back) :
    Seeded password hash front back c a := by
  have hkept : a.passwordHash = hash := by
    rcases hlists.set with hline | hread
    · have hstored := passwordHash_of_line hline hhash.ne_nil hhash.isRaw hlists.valid hlists.only
      rwa [String.ofList_toList] at hstored
    · exact hread
  refine ⟨hkept, ?_, ?_, ?_⟩
  · intro s path hread
    rw [run_load hread, loaded, interpolate_seededText hhash hfront hback, hlists.valid]
  · exact fun hstatic s s' t hstart => directory_of_start hstatic hstart
  · intro w hdirectory hworks
    exact Deployment.runServe_authenticate (hkept ▸ hhash.opens) (find_listed hlists.only hdirectory hworks)

namespace Sample

/-- A salt of sixteen zeros. -/
def stored : String := Password.hash "lovelace" (List.replicate 16 0)

def seededAccount (hash : String) : Account where
  id := 7
  name := "Ada"
  email := "ada@example.org"
  passwordHash := hash
  role := .member
  subscription := .inactive

def seeded (hash : String) : Config where
  users := { accounts := [seededAccount hash] }

def rows : List Toml.Line :=
  [.value "id" (.integer 7), .value "name" (.string "Ada"), .value "email" (.string "ada@example.org")]

def above : List Char := "[[users.accounts]]\n".toList ++ rows.flatMap Toml.Line.chars

def below : List Char := '\n' :: (Toml.Line.value "role" (.integer 2)).chars

/-- The accounts, with the first of them begun. -/
def begun (entries : Toml.Entries) : Toml.Document where
  root := [("users", .table .implied [("accounts", .tables [entries])])]
  here := ["users", "accounts"]

def aboveEntries : Toml.Entries :=
  [("id", .value (.integer 7)), ("name", .value (.string "Ada")), ("email", .value (.string "ada@example.org"))]

theorem reads_above : Toml.Reads above ⟨[], []⟩ (begun aboveEntries) := by
  have hheader : Toml.Reads "[[users.accounts]]\n".toList ⟨[], []⟩ (begun []) := by
    have hchars : "[[users.accounts]]\n".toList =
        '[' :: '[' :: ("users".toList ++ '.' :: ("accounts".toList ++ [']', ']', '\n'])) := rfl
    rw [hchars]
    refine .statement (c := '[') rfl (by unfold Toml.Solid; decide) fun rest => ?_
    have hextend : Toml.extendAt ["users", "accounts"] [] = some (begun []).root := rfl
    simp only [List.cons_append, List.append_assoc, List.nil_append]
    exact Toml.statement?_item (by decide) (by decide) hextend
  exact hheader.append (Toml.Line.reads_all (by decide +kernel) (by with_unfolding_all rfl))

theorem ofText?_seeded {hash : String} (hraw : ∀ c ∈ hash.toList, Toml.isRaw c) :
    ofText? (seededText hash (above ++ "password_hash = \"".toList) ('"' :: below)) = some (seeded hash) := by
  have hlines : Toml.Reads ((Toml.Line.quoted "password_hash" hash.toList none ::
      [Toml.Line.value "role" (.integer 2)]).flatMap Toml.Line.chars) (begun aboveEntries)
      (begun (aboveEntries ++ [("password_hash", .value (.string (String.ofList hash.toList))),
        ("role", .value (.integer 2))])) :=
    Toml.Line.reads_all (List.forall_mem_cons.mpr ⟨.quoted (by decide) hraw, by decide +kernel⟩)
      (by with_unfolding_all rfl)
  have hchars : above ++ "password_hash = \"".toList ++ hash.toList ++ '"' :: below =
      above ++ (Toml.Line.quoted "password_hash" hash.toList none ::
        [Toml.Line.value "role" (.integer 2)]).flatMap Toml.Line.chars := by
    simp [toList_hashOpening, below, Toml.Line.chars, Toml.noteChars]
  have hreads := reads_above.append hlines
  rw [← hchars, String.ofList_toList] at hreads
  rw [ofText?, seededText, Toml.read?_of_reads hreads fun h => absurd (Option.some.inj h) (by decide)]
  with_unfolding_all rfl

end Sample

theorem seeding_sample : Seeded "lovelace" Sample.stored (Sample.above ++ "password_hash = \"".toList)
    ('"' :: Sample.below) (Sample.seeded Sample.stored) (Sample.seededAccount Sample.stored) := by
  have hhash : Password.Hashed "lovelace" Sample.stored := ⟨_, rfl, rfl⟩
  have hlists : Lists Sample.stored (Sample.above ++ "password_hash = \"".toList) ('"' :: Sample.below)
      (Sample.seeded Sample.stored) (Sample.seededAccount Sample.stored) :=
    ⟨Sample.ofText?_seeded hhash.isRaw, rfl, .inl ⟨_, _, _, rfl, rfl, Sample.reads_above, rfl⟩⟩
  exact seeding hhash hlists (by decide +kernel) (by decide +kernel)

end SessionGate.Setup
