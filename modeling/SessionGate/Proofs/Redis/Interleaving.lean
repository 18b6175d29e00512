import SessionGate.Proofs.Redis.Server

/-!
Reading a session while other clients use the server. A read tells the kind of its key first and fetches
the value by a second command; what others do in between shows only where they put a value of another
kind in the place of a session. Main statement: `Moment.amid`.
-/

namespace SessionGate.Redis

/-- A step of another client: writes that the server performs as a whole, at an instant. Without writes
it only lets time pass. -/
structure Turn where
  time : Instant
  writes : List Write
deriving DecidableEq, Repr

/-- A server at an instant. -/
structure Moment where
  server : Server
  now : Instant

namespace Moment

def value? (m : Moment) (key : String) : Option Value := m.server.value? m.now key

def after (m : Moment) (t : Turn) : Moment := ⟨(m.server.writeAll t.time t.writes).2, t.time⟩

def last (m : Moment) (turns : List Turn) : Moment := turns.foldl after m

/-- A moment and those after each of some turns. -/
def moments (m : Moment) : List Turn → List Moment
  | [] => [m]
  | t :: turns => m :: (m.after t).moments turns

def perform (m : Moment) (c : Command β) : β × Moment :=
  ((m.server.perform m.now c).1, ⟨(m.server.perform m.now c).2, m.now⟩)

/-- Runs an access, with turns of other clients after each of its commands. -/
def run : Program Command α → Moment → List (List Turn) → α
  | .done a, _, _ => a
  | .ask c next, m, gaps =>
    run (next (m.perform c).1) ((m.perform c).2.last (gaps.headD [])) gaps.tail

/-- What a read answers between whose commands nothing comes. -/
def read (m : Moment) (id : String) : Except Session.StoreFault Session.Stored :=
  (m.server.run m.now (Session.Redis.read id)).1

/-- What a read answers that begins now, with turns of others after its first command. -/
def readAmid (m : Moment) (turns : List Turn) (id : String) :
    Except Session.StoreFault Session.Stored :=
  run (Session.Redis.read id) m [turns]

theorem run_nil (p : Program Command α) (m : Moment) : run p m [] = (m.server.run m.now p).1 := by
  induction p generalizing m with
  | done a => rfl
  | ask c next ih => exact ih _ _

/-- The server that is asked for the value may be another one than told the kind. -/
theorem readAmid_eq (m : Moment) (turns : List Turn) (id : String) : m.readAmid turns id =
    ((m.last turns).server.run (m.last turns).now
      (afterKind id (.ok ((m.value? id).elim "none" Value.kind)))).1 := by
  rw [readAmid, read_eq]
  exact run_nil _ _

theorem read_eq_stored {m : Moment} (h : m.server.Proper) (id : String) :
    m.read id = stored (m.value? id) := by
  rw [read, Server.run_read h]
  rfl

theorem mem_moments_self (m : Moment) (turns : List Turn) : m ∈ m.moments turns := by
  cases turns <;> exact List.mem_cons_self

theorem last_mem_moments (m : Moment) (turns : List Turn) : m.last turns ∈ m.moments turns := by
  induction turns generalizing m with
  | nil => exact List.mem_cons_self
  | cons t turns ih => exact List.mem_cons_of_mem _ (ih (m.after t))

/-- What every entry satisfies and no turn breaks is so at every moment. -/
theorem keeps_of_mem_moments {P : String → Value → Prop} {m : Moment} {turns : List Turn}
    (h : m.server.Keeps P) (hturns : ∀ t ∈ turns, ∀ w ∈ t.writes, w.Makes P) :
    ∀ w ∈ m.moments turns, w.server.Keeps P := by
  induction turns generalizing m with
  | nil => exact List.forall_mem_singleton.mpr h
  | cons t turns ih =>
    rw [List.forall_mem_cons] at hturns
    exact List.forall_mem_cons.mpr ⟨h, ih (h.writeAll t.time hturns.1) hturns.2⟩

theorem proper_of_mem_moments {m : Moment} (h : m.server.Proper) (turns : List Turn) :
    ∀ w ∈ m.moments turns, w.server.Proper :=
  keeps_of_mem_moments h fun _ _ w _ => w.makes_proper

end Moment

/-- In the place of a value that a second command is sent for there is one of another kind. -/
def Swapped (before after : Option Value) : Prop :=
  ∃ v v', before = some v ∧ after = some v' ∧ (v.kind = "hash" ∨ v.kind = "string") ∧
    v'.kind ≠ v.kind

theorem swapped_some_iff {v : Value} (h : v.kind = "hash" ∨ v.kind = "string") (after : Option Value) :
    Swapped (some v) after ↔ after.any (·.kind ≠ v.kind) := by
  constructor
  · rintro ⟨_, v', ⟨⟩, rfl, -, hne⟩
    exact decide_eq_true hne
  · intro hany
    cases after with
    | none => cases hany
    | some v' => exact ⟨v, v', rfl, rfl, h, of_decide_eq_true hany⟩

/-- No value, or one that clients write for a session. -/
def IsSession : Option Value → Prop
  | none | some (.text _) => True
  | some (.hash fields) => ∃ r, Session.Record.ofFields fields = .ok r
  | some (.other _) => False

theorem stored_ne_unavailable (v : Option Value) : stored v ≠ .error .unavailable := by
  rcases v with - | fields | text | kind
  · nofun
  · rcases fields with - | ⟨field, fields⟩
    · nofun
    · change ((Session.Record.ofFields (field :: fields)).map _).mapError _ ≠ _
      cases Session.Record.ofFields (field :: fields) <;> nofun
  · nofun
  · nofun

theorem stored_ne_corrupt {v : Option Value} (h : IsSession v) (fault : Session.RecordFault) :
    stored v ≠ .error (.corrupt fault) := by
  rcases v with - | fields | text | kind
  · nofun
  · obtain ⟨r, hr⟩ := h
    rcases fields with - | ⟨field, fields⟩
    · nofun
    · change ((Session.Record.ofFields (field :: fields)).map _).mapError _ ≠ _
      rw [hr]
      nofun
  · nofun
  · exact h.elim

namespace Moment

/-- A read whose second command finds a value of another kind is refused by the server; every other one
answers by what is there at its first command, or at its second. -/
theorem readAmid_cases {m : Moment} (h : m.server.Proper) (turns : List Turn) (id : String) :
    (Swapped (m.value? id) ((m.last turns).value? id) ∧
      m.readAmid turns id = .error .unavailable) ∨
    (¬ Swapped (m.value? id) ((m.last turns).value? id) ∧
      (m.readAmid turns id = stored (m.value? id) ∨
        m.readAmid turns id = stored ((m.last turns).value? id))) := by
  rw [readAmid_eq]
  cases hvalue : m.value? id with
  | none => exact .inr ⟨nofun, .inl rfl⟩
  | some v =>
    rw [Option.elim_some]
    by_cases hkind : v.kind = "hash" ∨ v.kind = "string"
    · have hlast := proper_of_mem_moments h turns _ (last_mem_moments m turns)
      rw [Server.run_afterKind hlast _ id hkind]
      by_cases hany : ((m.last turns).value? id).any (·.kind ≠ v.kind)
      · exact .inl ⟨(swapped_some_iff hkind _).mpr hany, if_pos hany⟩
      · exact .inr ⟨mt (swapped_some_iff hkind _).mp hany, .inr (if_neg hany)⟩
    · obtain ⟨hhash, hstring⟩ := not_or.mp hkind
      rw [Server.afterKind_other (Server.Keeps.value h hvalue) hhash hstring]
      refine .inr ⟨?_, .inl rfl⟩
      rintro ⟨_, v', ⟨⟩, -, hfetched, -⟩
      exact hkind hfetched

/-- What a read answers amid the turns of others. -/
structure Amid (m : Moment) (turns : List Turn) (id : String) : Prop where
  /-- The answer is that of an undisturbed read at one of the moments, but for a value that was swapped. -/
  atomic_iff : (∃ w ∈ m.moments turns, m.readAmid turns id = w.read id) ↔
    ¬ Swapped (m.value? id) ((m.last turns).value? id)
  unavailable_iff : m.readAmid turns id = .error .unavailable ↔
    Swapped (m.value? id) ((m.last turns).value? id)
  not_corrupt : (∀ w ∈ m.moments turns, IsSession (w.value? id)) →
    ∀ fault, m.readAmid turns id ≠ .error (.corrupt fault)
  /-- No value is swapped under a key that only ever holds values of one kind. -/
  atomic_of_kind (kind : String) :
    m.server.Keeps (fun key v => key = id → v.kind = kind) →
    (∀ t ∈ turns, ∀ w ∈ t.writes, w.Makes fun key v => key = id → v.kind = kind) →
    ∃ w ∈ m.moments turns, m.readAmid turns id = w.read id

theorem not_swapped_of_kind {m : Moment} {turns : List Turn} {id kind : String}
    (h : m.server.Keeps fun key v => key = id → v.kind = kind)
    (hturns : ∀ t ∈ turns, ∀ w ∈ t.writes, w.Makes fun key v => key = id → v.kind = kind) :
    ¬ Swapped (m.value? id) ((m.last turns).value? id) := by
  have hlast := keeps_of_mem_moments h hturns _ (last_mem_moments m turns)
  rintro ⟨v, v', hv, hv', -, hne⟩
  exact hne ((hlast.value hv' rfl).trans (h.value hv rfl).symm)

theorem exists_read_of_not_swapped {m : Moment} (h : m.server.Proper) {turns : List Turn} {id : String}
    (hswap : ¬ Swapped (m.value? id) ((m.last turns).value? id)) :
    ∃ w ∈ m.moments turns, m.readAmid turns id = w.read id := by
  have hlast := last_mem_moments m turns
  rcases readAmid_cases h turns id with ⟨hyes, -⟩ | ⟨-, hfirst | hsecond⟩
  · exact absurd hyes hswap
  · exact ⟨m, mem_moments_self m turns, hfirst.trans (read_eq_stored h id).symm⟩
  · exact ⟨_, hlast, hsecond.trans (read_eq_stored (proper_of_mem_moments h turns _ hlast) id).symm⟩

theorem amid {m : Moment} (h : m.server.Proper) (turns : List Turn) (id : String) :
    Amid m turns id where
  atomic_iff := by
    refine ⟨?_, exists_read_of_not_swapped h⟩
    rintro ⟨w, hw, hread⟩ hswap
    rw [read_eq_stored (proper_of_mem_moments h turns w hw)] at hread
    rcases readAmid_cases h turns id with ⟨-, hrefused⟩ | ⟨hno, -⟩
    · exact stored_ne_unavailable _ (hread.symm.trans hrefused)
    · exact hno hswap
  unavailable_iff := by
    rcases readAmid_cases h turns id with ⟨hyes, hrefused⟩ | ⟨hno, hread | hread⟩
    · exact iff_of_true hrefused hyes
    · exact iff_of_false (hread ▸ stored_ne_unavailable _) hno
    · exact iff_of_false (hread ▸ stored_ne_unavailable _) hno
  not_corrupt hsessions fault := by
    rcases readAmid_cases h turns id with ⟨-, hrefused⟩ | ⟨-, hread | hread⟩
    · rw [hrefused]
      nofun
    · rw [hread]
      exact stored_ne_corrupt (hsessions m (mem_moments_self m turns)) fault
    · rw [hread]
      exact stored_ne_corrupt (hsessions _ (last_mem_moments m turns)) fault
  atomic_of_kind _ hkeeps hturns := exists_read_of_not_swapped h (not_swapped_of_kind hkeeps hturns)

end Moment

namespace Sample

def record : Session.Record :=
  { subject := 7, role := .member, subscription := .inactive, name := none, email := none }

/-- A session that an older client keeps as a text. -/
def kept : Moment := ⟨⟨[("first", ⟨.text "7", none⟩)]⟩, ⟨0⟩⟩

/-- Another client stores a record under the same id. -/
def renewal : Turn := ⟨⟨1⟩, Session.Redis.createWrites "first" record 60⟩

def removal : Turn := ⟨⟨1⟩, [.delete "first"]⟩

theorem proper_kept : kept.server.Proper := by
  intro key e he
  obtain ⟨rfl, rfl⟩ := Prod.mk.inj (List.mem_singleton.mp (mem_of_lookup he))
  trivial

end Sample

/-- A session is renewed as it is read, and the read is refused as if the server were gone; of one that is
removed in between it answers what is true in the end. -/
theorem Moment.amid_sample : Sample.kept.server.Proper ∧
    (∀ w ∈ Sample.kept.moments [Sample.renewal], IsSession (w.value? "first")) ∧
    Sample.kept.readAmid [Sample.renewal] "first" = .error .unavailable ∧
    (¬ ∃ w ∈ Sample.kept.moments [Sample.renewal],
      Sample.kept.readAmid [Sample.renewal] "first" = w.read "first") ∧
    ∃ w ∈ Sample.kept.moments [Sample.removal],
      Sample.kept.readAmid [Sample.removal] "first" = w.read "first" := by
  have hproper := Sample.proper_kept
  have hrenewal := amid hproper [Sample.renewal] "first"
  have hremoval := amid hproper [Sample.removal] "first"
  have hswapped : Swapped (Sample.kept.value? "first")
      ((Sample.kept.last [Sample.renewal]).value? "first") :=
    ⟨.text "7", .hash Sample.record.toFields, rfl, rfl, .inr rfl, by decide⟩
  have hsessions : ∀ w ∈ Sample.kept.moments [Sample.renewal], IsSession (w.value? "first") := by
    intro w hw
    obtain ⟨⟩ | ⟨_, ⟨⟩ | ⟨_, ⟨⟩⟩⟩ := hw
    · trivial
    · exact ⟨_, Session.ofFields_toFields Sample.record⟩
  refine ⟨hproper, hsessions, hrenewal.unavailable_iff.mpr hswapped, ?_, ?_⟩
  · exact fun hread => hrenewal.atomic_iff.mp hread hswapped
  · refine hremoval.atomic_iff.mpr ?_
    rintro ⟨_, _, -, ⟨⟩, -⟩

end SessionGate.Redis
