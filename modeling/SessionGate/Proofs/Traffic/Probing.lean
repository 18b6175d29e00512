import SessionGate.Proofs.Traffic.Calls

/-!
A login with a user name that is not known looks like one with a wrong password, as long as the
deployment does not say otherwise. Of two runs over two directories that differ in whom they know, a
client sees the same for as long as it asks for nobody whom only one of them admits. Main statement:
`Deployment.unknownLikeWrong`.
-/

namespace SessionGate

/-- The password admits nobody: the user is not known, or has another password. -/
def Found.Denies (password : String) : Found → Prop
  | .ok none => True
  | .ok (some account) => Password.opens password account.passwordHash = false
  | .error _ => False

/-- What is noted of credentials that are turned down. -/
def Note.IsDenial : Note → Prop
  | .unknownUser | .passwordMismatch _ => True
  | _ => False

def Note.SameForClient (n n' : Note) : Prop := n = n' ∨ n.IsDenial ∧ n'.IsDenial

namespace Call

/-- Two directories answer a call alike: the same about its user, or both turn its credentials down
where a client is not told why. -/
def AnsweredAlike (dir dir' : Directory) (call : Call) : Prop :=
  ∀ c, call.credentials? = some c → dir.find? c.username = dir'.find? c.username ∨
    (∀ direct, call ≠ .authenticate direct) ∧
      Found.Denies c.password (.ok (dir.find? c.username)) ∧
      Found.Denies c.password (.ok (dir'.find? c.username))

end Call

def Move.AnsweredAlike (dir dir' : Directory) : Move → Prop
  | .arrive call => call.AnsweredAlike dir dir'
  | _ => True

theorem Found.Denies.checked {password : String} {f : Found} (h : f.Denies password)
    {d : Deployment} (hhidden : d.revealUnknownUsers = false) :
    (f.checked password).mapError d.hideUnknown = .error .wrongCredentials ∧
      ∃ n : Note, f.checkNotes password = [n] ∧ n.IsDenial := by
  rcases f with fault | _ | account
  · cases h
  · refine ⟨?_, _, rfl, trivial⟩
    exact congrArg Except.error (if_neg (by rw [hhidden]; decide))
  · have hopens : Password.opens password account.passwordHash = false := h
    simp only [Found.checked, Found.checkNotes, hopens]
    exact ⟨rfl, _, rfl, trivial⟩

namespace Probing

def pairing (dir dir' : Directory) : Pairing where
  alike := Note.SameForClient
  calls call call' := call = call' ∧ call.AnsweredAlike dir dir'
  found call _ username f f' := ∀ c, call.credentials? = some c → c.username = username →
    f = f' ∨ (∀ direct, call ≠ .authenticate direct) ∧ f.Denies c.password ∧ f'.Denies c.password

variable {d : Deployment} {dir dir' : Directory}

theorem sound_pairing (hhidden : d.revealUnknownUsers = false) (dir dir' : Directory) :
    (pairing dir dir').Sound d where
  note _ := .inl rfl
  password
    | _, _, ⟨rfl, _⟩ => .refl _
  told call call' h c c' hc hc' f f' hfound := by
    obtain ⟨rfl, -⟩ := h
    obtain rfl := Option.some.inj (hc.symm.trans hc')
    rcases hfound c hc rfl with rfl | ⟨hdirect, hf, hf'⟩
    · exact ⟨rfl, List.forall₂_same.mpr fun n _ => .inl rfl⟩
    · have hhide : call.hide d = d.hideUnknown := by
        cases call with
        | authenticate direct => exact absurd rfl (hdirect direct)
        | _ => rfl
      obtain ⟨hresult, n, hnotes, hn⟩ := hf.checked hhidden
      obtain ⟨hresult', n', hnotes', hn'⟩ := hf'.checked hhidden
      refine ⟨by rw [hhide, hresult, hresult'], ?_⟩
      rw [hnotes, hnotes']
      exact .cons (.inr ⟨hn, hn'⟩) .nil

/-- A directory that answers a call alike does so whatever fails. -/
theorem found_of_answeredAlike {w w' : World} {alike : Note → Note → Prop}
    (h : w.Beside alike dir dir' w') {call : Call} (hcall : call.AnsweredAlike dir dir')
    (username : String) :
    (pairing dir dir').found call call username (w.find username) (w'.find username) := by
  intro c hc husername
  subst husername
  rw [h.rest]
  unfold World.find
  dsimp only
  rw [h.accounts]
  cases w.faults.find with
  | some fault => exact .inl rfl
  | none =>
    rcases hcall c hc with hsame | hdenied
    · exact .inl (congrArg Except.ok hsame)
    · exact .inr hdenied

end Probing

namespace Service

variable {d : Deployment} {dir dir' : Directory} {s s' : Service} {moves : List Move}

theorem withoutNotes_of_beside (hhidden : d.revealUnknownUsers = false)
    (h : Beside (Probing.pairing dir dir') dir dir' s s')
    (hmoves : ∀ m ∈ moves, m.AnsweredAlike dir dir') :
    (s.states d moves).map (·.sight.withoutNotes) =
      (s'.states d moves).map (·.sight.withoutNotes) := by
  induction moves generalizing s s' with
  | nil => exact congrArg (· :: []) h.withoutNotes
  | cons m moves ih =>
    obtain ⟨hm, hmoves⟩ := List.forall_mem_cons.mp hmoves
    have hsound := Probing.sound_pairing hhidden dir dir'
    refine congrArg₂ List.cons h.withoutNotes (ih (h.step hsound ?_ ?_) hmoves)
    · cases m with
      | arrive call => exact .arrive ⟨rfl, hm⟩
      | turn clock wall faults => exact .turn clock wall faults
      | act n => exact .act n
    · rintro c c' u ⟨rfl, hc⟩ - -
      exact Probing.found_of_answeredAlike h.world hc u

end Service

namespace Deployment

variable {d : Deployment} {w : World} {dir dir' : Directory} {req : Http.Request} {c : Credentials}

/-- A login whose credentials are turned down does nothing but say so. -/
theorem serve_refused {r : Refusal}
    (hroute : Route.ofPath? (Http.pathOf req.target) = some .login) (hmethod : req.method = "POST")
    (hread : readCredentials req = .ok c)
    (hr : (Found.checked c.password (w.find c.username)).mapError d.hideUnknown = .error r) :
    w.serve d req = (.ok r.response, { w with
      notes := w.notes ++ (Found.checkNotes c.password (w.find c.username) ++ [r.note]) }) := by
  obtain ⟨next, hserve, hnext⟩ := d.serve_eq_ask hroute hmethod hread
  rw [World.serve, hserve, World.run_ask]
  change w.run (next (w.find c.username)) = _
  rw [hnext _ r hr, World.run_noting]

/-- What a login comes to over two directories that both turn it down, and what comes of it. -/
structure TurnedDownAlike (d : Deployment) (w : World) (dir dir' : Directory) (req : Http.Request) :
    Prop where
  answer : ∃ response, ({ w with directory := dir }.serve d req).1 = .ok response ∧
    ({ w with directory := dir' }.serve d req).1 = .ok response
  /-- Unless the directory itself fails, which shows nothing of what is in it. -/
  refused : w.faults.find = none →
    ({ w with directory := dir }.serve d req).1 = .ok Refusal.wrongCredentials.response
  untouched : ∃ notes notes',
    ({ w with directory := dir }.serve d req).2 = { w with directory := dir, notes } ∧
      ({ w with directory := dir' }.serve d req).2 = { w with directory := dir', notes := notes' }
  /-- What follows shows the same for as long as the directories answer alike. -/
  continued : ∀ moves, (∀ m ∈ moves, Move.AnsweredAlike dir dir' m) →
    (Service.states d ⟨({ w with directory := dir }.serve d req).2, []⟩ moves).map
        (·.sight.withoutNotes) =
      (Service.states d ⟨({ w with directory := dir' }.serve d req).2, []⟩ moves).map
        (·.sight.withoutNotes)
  /-- So does a run in which the login takes turns with other calls, before or after it. -/
  amid : ∀ before after, (∀ m ∈ before ++ after, Move.AnsweredAlike dir dir' m) →
    (Service.states d ⟨{ w with directory := dir }, []⟩
        (before ++ .arrive (.request req) :: after)).map (·.sight.withoutNotes) =
      (Service.states d ⟨{ w with directory := dir' }, []⟩
        (before ++ .arrive (.request req) :: after)).map (·.sight.withoutNotes)

theorem exists_refusal {username : String} (hhidden : d.revealUnknownUsers = false)
    (hunknown : w.directory.find? username = none) (password : String) : ∃ r,
      (Found.checked password (w.find username)).mapError d.hideUnknown = .error r ∧
        (w.faults.find = none → r = .wrongCredentials) := by
  unfold World.find
  cases w.faults.find with
  | some fault => exact ⟨.directory fault, rfl, nofun⟩
  | none =>
    have hdenied : Found.Denies password (.ok (w.directory.find? username)) := by
      rw [hunknown]
      trivial
    exact ⟨_, (hdenied.checked hhidden).1, fun _ => rfl⟩

theorem unknownLikeWrong {account : Account} (hhidden : d.revealUnknownUsers = false)
    (hroute : Route.ofPath? (Http.pathOf req.target) = some .login) (hmethod : req.method = "POST")
    (hread : readCredentials req = .ok c) (hunknown : dir.find? c.username = none)
    (hknown : dir'.find? c.username = some account)
    (hwrong : Password.opens c.password account.passwordHash = false) :
    d.TurnedDownAlike w dir dir' req := by
  have hcredentials : (Call.request req).credentials? = some c := congrArg Except.toOption hread
  have hcall : (Call.request req).AnsweredAlike dir dir' := by
    intro c' hc'
    obtain rfl := Option.some.inj (hc'.symm.trans hcredentials)
    rw [hunknown, hknown]
    exact .inr ⟨nofun, trivial, hwrong⟩
  have hsame : ∀ notes, List.Forall₂ Note.SameForClient notes notes :=
    fun notes => List.forall₂_same.mpr fun n _ => .inl rfl
  have hbeside : World.Beside Note.SameForClient dir dir' { w with directory := dir }
      { w with directory := dir' } := ⟨rfl, rfl, hsame _⟩
  have htold := (Probing.sound_pairing hhidden dir dir').told (.request req) (.request req)
    ⟨rfl, hcall⟩ c c hcredentials hcredentials _ _
    (Probing.found_of_answeredAlike hbeside hcall c.username)
  obtain ⟨r, hr, hnone⟩ := exists_refusal (w := { w with directory := dir }) hhidden hunknown c.password
  have hserve := serve_refused hroute hmethod hread hr
  have hserve' := serve_refused hroute hmethod hread (htold.result.symm.trans hr)
  have hafter : World.Beside Note.SameForClient dir dir' ({ w with directory := dir }.serve d req).2
      ({ w with directory := dir' }.serve d req).2 := by
    rw [hserve, hserve']
    exact ⟨rfl, rfl, List.rel_append (hsame _) (List.rel_append htold.notes (hsame _))⟩
  have hstart : Service.Beside (Probing.pairing dir dir') dir dir' ⟨{ w with directory := dir }, []⟩
      ⟨{ w with directory := dir' }, []⟩ := ⟨hbeside, .nil⟩
  have hgone : Service.Beside (Probing.pairing dir dir') dir dir'
      ⟨({ w with directory := dir }.serve d req).2, []⟩
      ⟨({ w with directory := dir' }.serve d req).2, []⟩ := ⟨hafter, .nil⟩
  constructor
  · exact ⟨r.response, by rw [hserve], by rw [hserve']⟩
  · intro hworks
    rw [hserve, hnone hworks]
  · exact ⟨_, _, congrArg Prod.snd hserve, congrArg Prod.snd hserve'⟩
  · exact fun moves => Service.withoutNotes_of_beside hhidden hgone
  · intro before after hmoves
    apply Service.withoutNotes_of_beside hhidden hstart
    obtain ⟨hbefore, hlast⟩ := List.forall_mem_append.mp hmoves
    exact List.forall_mem_append.mpr ⟨hbefore, List.forall_mem_cons.mpr ⟨hcall, hlast⟩⟩

end Deployment

namespace Sample

/-- An account that no password opens. -/
def locked : Account := { account with passwordHash := "!" }

end Sample

theorem Deployment.unknownLikeWrong_sample :
    Sample.deployment.TurnedDownAlike Sample.world .empty (.ofAccounts [Sample.locked]) Sample.login ∧
      (Sample.world.serve Sample.deployment Sample.login).1 ≠
        .ok Refusal.wrongCredentials.response := by
  have hknown : (Directory.ofAccounts [Sample.locked]).find? Sample.credentials.username =
      some Sample.locked := by
    change (Directory.empty.insert Sample.locked).find? Sample.credentials.username = _
    rw [Directory.find?_insert, if_pos (by decide +kernel)]
  refine ⟨unknownLikeWrong rfl (by decide +kernel) rfl Sample.readCredentials_login rfl hknown
    (by decide +kernel), ?_⟩
  obtain ⟨g, w, -, hserve⟩ := Sample.exists_login
  rw [hserve]
  intro h
  cases congrArg Http.Response.status (Except.ok.inj h)

end SessionGate
