import SessionGate.Proofs.Traffic.Calls

/-!
Passwords and their hashes go no further than the check of credentials. Of two runs that differ in
them alone, all that is to be seen is the same, as long as every check comes to the same verdict. Main
statement: `Service.secrecy`.
-/

namespace SessionGate

def Account.hashless (a : Account) : Account := { a with passwordHash := "" }

def Directory.hashless (dir : Directory) : Directory :=
  ⟨dir.accounts.map fun entry => (entry.1, entry.2.hashless)⟩

def World.hashless (w : World) : World := { w with directory := w.directory.hashless }

def Found.hashless (f : Found) : Found := f.map (Option.map Account.hashless)

theorem Directory.find?_hashless (dir : Directory) (username : String) :
    dir.hashless.find? username = (dir.find? username).map Account.hashless := by
  unfold hashless find?
  dsimp only
  induction dir.accounts with
  | nil => rfl
  | cons entry accounts ih =>
    rw [List.map_cons, List.lookup_cons, List.lookup_cons, ih]
    cases Text.lowercase username == entry.1 <;> rfl

theorem World.find_hashless (w : World) (username : String) :
    w.hashless.find username = Found.hashless (w.find username) := by
  have hfaults : w.hashless.faults = w.faults := rfl
  unfold World.find
  rw [hfaults]
  cases w.faults.find with
  | some fault => rfl
  | none => exact congrArg Except.ok (w.directory.find?_hashless username)

theorem World.Beside.find_hashless {alike : Note → Note → Prop} {dir dir' : Directory}
    {w w' : World} (h : Beside alike dir dir' w w') (hdir : dir.hashless = dir'.hashless)
    (username : String) :
    Found.hashless (w.find username) = Found.hashless (w'.find username) := by
  have hhashless : w'.hashless.find username = w.hashless.find username := by
    rw [h.rest, hashless, hashless, h.accounts, hdir]
    rfl
  rw [← World.find_hashless, ← World.find_hashless, hhashless]

/-- Whether a password opens the hash of the account that was found. -/
def Found.verdict? (password : Option String) : Found → Option Bool
  | .ok (some account) => password.map fun password => Password.opens password account.passwordHash
  | _ => none

namespace Service

/-- The verdict on a password that a move comes to. -/
def verdict? (s : Service) (m : Move) : Option Bool :=
  (s.lookup? m).bind fun (call, username) =>
    Found.verdict? (call.credentials?.map Credentials.password) (s.world.find username)

def verdicts (d : Deployment) (s : Service) : List Move → List (Option Bool)
  | [] => []
  | m :: moves => s.verdict? m :: (s.step d m).verdicts d moves

end Service

theorem Found.toldAlike_of_verdict {password password' : String} {f f' : Found}
    (haccount : f.hashless = f'.hashless)
    (hverdict : f.verdict? (some password) = f'.verdict? (some password'))
    (hide : Refusal → Refusal) : f.ToldAlike Eq hide password password' f' := by
  suffices f.checked password = f'.checked password' ∧
      f.checkNotes password = f'.checkNotes password' by
    rw [← List.forall₂_eq_eq_eq] at this
    exact ⟨congrArg _ this.1, this.2⟩
  rcases f with fault | _ | a <;> rcases f' with fault' | _ | a' <;> try cases haccount
  · exact ⟨rfl, rfl⟩
  · exact ⟨rfl, rfl⟩
  · have hhashless : a.hashless = a'.hashless := Option.some.inj (Except.ok.inj haccount)
    have hprofile : a.hashless.profile = a'.hashless.profile := congrArg _ hhashless
    have hid : a.hashless.id = a'.hashless.id := congrArg _ hhashless
    change a.profile = a'.profile at hprofile
    change a.id = a'.id at hid
    have hopens := Option.some.inj hverdict
    dsimp only at hopens
    simp only [checked, checkNotes, hprofile, hid, hopens, and_self]

namespace Secrecy

/-- Calls that differ in a password find the same account but for its hash, and the same verdict. -/
def pairing : Pairing where
  alike := Eq
  calls := Call.SameButPassword
  found call call' _ f f' := f.hashless = f'.hashless ∧
    f.verdict? (call.credentials?.map Credentials.password) =
      f'.verdict? (call'.credentials?.map Credentials.password)

theorem sound_pairing (d : Deployment) : pairing.Sound d where
  note _ := rfl
  password _ _ h := h
  told call call' _ c c' hc hc' f f' h := by
    obtain ⟨haccount, hverdict⟩ := h
    rw [hc, hc'] at hverdict
    exact Found.toldAlike_of_verdict haccount hverdict _

end Secrecy

namespace Service

variable {d : Deployment} {moves moves' : List Move}

theorem sight_of_beside {s s' : Service} {dir dir' : Directory}
    (hdir : dir.hashless = dir'.hashless) (h : Beside Secrecy.pairing dir dir' s s')
    (hmoves : List.Forall₂ (Move.Beside Call.SameButPassword) moves moves')
    (hverdicts : s.verdicts d moves = s'.verdicts d moves') :
    (s.states d moves).map sight = (s'.states d moves').map sight := by
  have hsight : ∀ {s s'}, Beside Secrecy.pairing dir dir' s s' → s.sight = s'.sight :=
    fun h => h.sight (List.forall₂_eq_eq_eq ▸ h.world.notes)
  induction hmoves generalizing s s' with
  | nil => exact congrArg (· :: []) (hsight h)
  | @cons m m' moves moves' hm _ ih =>
    obtain ⟨hverdict, hrest⟩ := List.cons.inj hverdicts
    refine congrArg₂ List.cons (hsight h) (ih (h.step (Secrecy.sound_pairing d) hm ?_) hrest)
    intro c c' u _ hlookup hlookup'
    refine ⟨h.world.find_hashless hdir u, ?_⟩
    simpa only [verdict?, hlookup, hlookup', Option.bind_some] using hverdict

/-- No answer, event, note or session says more of a password, or of its hash, than the verdict. -/
theorem secrecy {w w' : World} (hworlds : w.hashless = w'.hashless)
    (hmoves : List.Forall₂ (Move.Beside Call.SameButPassword) moves moves')
    (hverdicts : verdicts d ⟨w, []⟩ moves = verdicts d ⟨w', []⟩ moves') :
    (states d ⟨w, []⟩ moves).map sight = (states d ⟨w', []⟩ moves').map sight := by
  have hdir : w.directory.hashless = w'.directory.hashless := congrArg World.directory hworlds
  have hnotes : w.hashless.notes = w'.hashless.notes := congrArg World.notes hworlds
  change w.notes = w'.notes at hnotes
  have hrest : w' = { w with directory := w'.directory, notes := w'.notes } :=
    calc w' = { w'.hashless with directory := w'.directory } := rfl
      _ = { w.hashless with directory := w'.directory } := by rw [hworlds]
      _ = _ := by rw [← hnotes]; rfl
  refine sight_of_beside hdir ⟨⟨rfl, hrest, ?_⟩, .nil⟩ hmoves hverdicts
  exact List.forall₂_eq_eq_eq ▸ hnotes

theorem verdicts_login {w : World} {req : Http.Request} {c : Credentials} {account : Account}
    (hroute : Route.ofPath? (Http.pathOf req.target) = some .login) (hmethod : req.method = "POST")
    (hread : Deployment.readCredentials req = .ok c)
    (hfind : w.find c.username = .ok (some account)) :
    verdicts d ⟨w, []⟩ [.arrive (.request req), .act 0] =
      [none, some (Password.opens c.password account.passwordHash)] := by
  obtain ⟨next, hserve, -⟩ := Deployment.serve_eq_ask (d := d) hroute hmethod hread
  have hlookup : (step d ⟨w, []⟩ (.arrive (.request req))).lookup? (.act 0) =
      some (.request req, c.username) := by
    change lookup? ⟨w, [⟨.request req, d.serve req >>= fun r => pure (.response r)⟩]⟩ (.act 0) = _
    rw [hserve]
    rfl
  have hpassword : (Call.request req).credentials?.map Credentials.password = some c.password := by
    rw [Call.credentials?, hread]
    rfl
  have hverdict : (step d ⟨w, []⟩ (.arrive (.request req))).verdict? (.act 0) =
      some (Password.opens c.password account.passwordHash) := by
    rw [verdict?, hlookup]
    change Found.verdict? ((Call.request req).credentials?.map Credentials.password)
      (w.find c.username) = _
    rw [hpassword, hfind]
    rfl
  simp only [verdicts, hverdict]
  rfl

end Service

namespace Sample

def accountWith (passwordHash : String) : Account := { account with passwordHash }

def worldWith (passwordHash : String) : World :=
  { world with directory := .ofAccounts [accountWith passwordHash] }

/-- The account after a change of its password. -/
def renewedAccount : Account := accountWith (Password.hash "analytical" (List.replicate 16 1))

def renewed : World := worldWith renewedAccount.passwordHash

def renewedCredentials : Credentials := { credentials with password := "analytical" }

def renewedLogin : Http.Request :=
  { login with
    body := (Json.write (.array [.text "Ada@example.org", .text "analytical"])).toUTF8.toList }

theorem hashless_worldWith (passwordHash other : String) :
    (worldWith passwordHash).hashless = (worldWith other).hashless := by
  rfl

theorem readCredentials_renewedLogin :
    Deployment.readCredentials renewedLogin = .ok renewedCredentials := by
  with_unfolding_all rfl

theorem find_renewed : renewed.find renewedCredentials.username = .ok (some renewedAccount) := by
  change Except.ok ((Directory.empty.insert renewedAccount).find? credentials.username) = _
  rw [Directory.find?_insert, if_pos (by decide +kernel)]

end Sample

/-- A login looks the same before and after a change of password, each with the password of its time. -/
theorem Service.secrecy_sample :
    Sample.world.hashless = Sample.renewed.hashless ∧
      Sample.login.body ≠ Sample.renewedLogin.body ∧
      (states Sample.deployment ⟨Sample.world, []⟩ [.arrive (.request Sample.login), .act 0]).map
          sight =
        (states Sample.deployment ⟨Sample.renewed, []⟩
          [.arrive (.request Sample.renewedLogin), .act 0]).map sight := by
  have hworlds : Sample.world.hashless = Sample.renewed.hashless :=
    Sample.hashless_worldWith Sample.account.passwordHash _
  have hreads : (Deployment.readCredentials Sample.login).map Credentials.username =
      (Deployment.readCredentials Sample.renewedLogin).map Credentials.username := by
    rw [Sample.readCredentials_login, Sample.readCredentials_renewedLogin]
    rfl
  have hopens : Password.opens Sample.credentials.password Sample.account.passwordHash :=
    Password.opens_hash "lovelace" rfl
  have hopens' : Password.opens Sample.renewedCredentials.password
      Sample.renewedAccount.passwordHash := Password.opens_hash "analytical" rfl
  refine ⟨hworlds, by decide +kernel, secrecy hworlds ?_ ?_⟩
  · exact .cons (.arrive (.request ⟨rfl, rfl, rfl, hreads⟩)) (.cons (.act 0) .nil)
  · rw [verdicts_login (by decide +kernel) rfl Sample.readCredentials_login Sample.find_world,
      verdicts_login (by decide +kernel) rfl Sample.readCredentials_renewedLogin
        Sample.find_renewed, hopens, hopens']

end SessionGate
