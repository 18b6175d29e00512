import SessionGate.Proofs.Json.Indented
import SessionGate.Proofs.Json.Members
import SessionGate.Proofs.Token.Claims

/-!
The records that leave the service as JSON texts: claims, profiles and key sets. Each reads back as it
was written, and from any other text whose objects have the same members of the record's own names. Main
statement: `wireFormats`.
-/

namespace SessionGate

namespace Json

/-- What a text is read as. -/
def decode? (read? : Json → Option α) (text : String) : Option α := (readText? text).bind read?

/-- A format in which a value reads back as it was written, with or without line breaks, and in which
texts of alike values are read as the same. -/
structure Format (write : α → Json) (read? : Json → Option α) (Alike : Json → Json → Prop) : Prop where
  back : ∀ a, decode? read? (write a).write = some a
  indentedBack : ∀ a, decode? read? (write a).writeIndented = some a
  alike : ∀ text text' v v', IsText text.toList v → IsText text'.toList v' → Alike v v' →
    decode? read? text' = decode? read? text

theorem IsText.decode?_eq {text : String} {v : Json} (h : IsText text.toList v)
    (read? : Json → Option α) : decode? read? text = read? v := by
  rw [decode?, h.readText?, Option.bind_some]

theorem format_of {write : α → Json} {read? : Json → Option α} {Alike : Json → Json → Prop}
    (hback : ∀ a, read? (write a) = some a) (halike : ∀ v v', Alike v v' → read? v' = read? v) :
    Format write read? Alike where
  back a := by rw [(isText_write (write a)).decode?_eq, hback]
  indentedBack a := by rw [(isText_writeIndented (write a)).decode?_eq, hback]
  alike text text' v v' htext htext' h := by
    rw [htext.decode?_eq, htext'.decode?_eq, halike v v' h]

end Json

namespace Profile

theorem ofJson?_toJson (p : Profile) : ofJson? p.toJson = some p := by
  have hfields : p.toJson.fields? fieldNames = some [some (.integer p.id.toInt), some (.text p.name),
      some (.text p.email), some p.role.toJson, some p.subscription.toJson] := rfl
  have htext : ∀ text, Json.text? (.text text) = some text := fun _ => rfl
  have hsubscription : Subscription.ofJson? p.subscription.toJson = some p.subscription :=
    Subscription.ofText?_eq_some_iff.mpr rfl
  rw [ofJson?, hfields]
  simp only [Json.int64?_integer, htext, Role.ofJson?_toJson, hsubscription]
  rfl

theorem ofJson?_alike {v v' : Json} (h : Json.Alike fieldNames v v') : ofJson? v' = ofJson? v := by
  rw [ofJson?, ofJson?, h.fields?_eq]

end Profile

namespace Token

theorem Claims.ofJson?_alike {v v' : Json} (h : Json.Alike fieldNames v v') :
    ofJson? v' = ofJson? v := by
  rw [ofJson?, ofJson?, h.fields?_eq]

theorem PublishedKey.ofJson?_toJson (k : PublishedKey) : ofJson? k.toJson = some k := rfl

theorem PublishedKey.ofJson?_alike {v v' : Json} (h : Json.Alike fieldNames v v') :
    ofJson? v' = ofJson? v := by
  rw [ofJson?, ofJson?, h.fields?_eq]

namespace KeySet

/-- The keys of a set may each be written in another way. -/
def AlikeKeys (v v' : Json) : Prop := v = v' ∨ ∃ items items', v = .array items ∧ v' = .array items' ∧
  List.Forall₂ (Json.Alike PublishedKey.fieldNames) items items'

def Alike (v v' : Json) : Prop := ∃ members between members', v = .object members ∧
  v' = .object members' ∧
  List.Forall₂ (fun m m' => m'.1 = m.1 ∧ AlikeKeys m.2 m'.2) members between ∧
  Json.Reordered ["keys"] between members'

def keys? (v : Json) : Option (List PublishedKey) := v.list? PublishedKey.ofJson?

theorem keys?_alike {v v' : Json} (h : AlikeKeys v v') : keys? v' = keys? v := by
  obtain rfl | ⟨items, items', rfl, rfl, h⟩ := h
  · rfl
  · change items'.mapM PublishedKey.ofJson? = items.mapM PublishedKey.ofJson?
    induction h with
    | nil => rfl
    | cons hitem _ ih => rw [List.mapM_cons, List.mapM_cons, PublishedKey.ofJson?_alike hitem, ih]

theorem ofJson?_object (members : List (Option String × Json)) : ofJson? (.object members) =
    if members.all fun (name, _) => name.isSome then
      ((Json.only? ["keys"] members).map (Option.map keys?)).bind fun found => found.join.map KeySet.mk
    else none := by
  have hfields : (Json.object members).fields? [["keys"]] =
      if members.all fun (name, _) => name.isSome then
        (Json.only? ["keys"] members).bind fun found => some [found]
      else none := rfl
  rw [ofJson?, hfields]
  split_ifs
  · rcases Json.only? ["keys"] members with _ | _ | v <;> rfl
  · rfl

theorem ofJson?_toJson (s : KeySet) : ofJson? s.toJson = some s := by
  have hkeys : keys? (.array (s.keys.map PublishedKey.toJson)) = some s.keys := by
    change (s.keys.map PublishedKey.toJson).mapM PublishedKey.ofJson? = _
    have hkey : PublishedKey.ofJson? ∘ PublishedKey.toJson = some :=
      funext PublishedKey.ofJson?_toJson
    rw [List.mapM_map (m := Option), hkey]
    exact (List.mapM_pure (f := id)).trans (congrArg some (List.map_id s.keys))
  exact congrArg (Option.map KeySet.mk) hkeys

theorem ofJson?_of_alike {v v' : Json} (h : Alike v v') : ofJson? v' = ofJson? v := by
  obtain ⟨members, between, members', rfl, rfl, hbetween, hreordered⟩ := h
  have hread : List.Forall₂ (fun m m' => m'.1 = m.1 ∧ keys? m'.2 = keys? m.2) members between :=
    hbetween.imp fun m m' hm => ⟨hm.1, keys?_alike hm.2⟩
  have honly : Json.only? ["keys"] members' = Json.only? ["keys"] between :=
    hreordered.only?_eq fun _ hname => hname
  rw [ofJson?_object, ofJson?_object, hreordered.all_isSome_eq, Json.all_isSome_of_forall₂ hbetween,
    honly, Json.map_only?_of_forall₂ hread]

end KeySet

/-- The members that are written of claims: the optional ones only where there is something to say. -/
def Claims.writtenNames (c : Claims) : List String :=
  ["subjectId", "sessionId", "iat", "exp"] ++ (c.issuer.map fun _ => "iss").toList ++
    (c.audience.map fun _ => "aud").toList ++ (c.subjectText.map fun _ => "sub").toList

theorem Claims.map_fst_toJson (c : Claims) : ∃ members, c.toJson = .object members ∧
    members.map Prod.fst = c.writtenNames.map some := by
  obtain ⟨subject, session, issuedAt, expiresAt, issuer, audience, subjectText⟩ := c
  refine ⟨_, rfl, ?_⟩
  cases issuer <;> cases audience <;> cases subjectText <;> rfl

end Token

/-- How the records are written and read. -/
structure WireFormats : Prop where
  claims : Json.Format Token.Claims.toJson Token.Claims.ofJson? (Json.Alike Token.Claims.fieldNames)
  profile : Json.Format Profile.toJson Profile.ofJson? (Json.Alike Profile.fieldNames)
  keySet : Json.Format Token.KeySet.toJson Token.KeySet.ofJson? Token.KeySet.Alike
  written : ∀ c : Token.Claims, ∃ members, Json.IsText c.toJson.write.toList (.object members) ∧
    members.map Prod.fst = c.writtenNames.map some

theorem wireFormats : WireFormats where
  claims := Json.format_of Token.Claims.ofJson?_toJson fun _ _ => Token.Claims.ofJson?_alike
  profile := Json.format_of Profile.ofJson?_toJson fun _ _ => Profile.ofJson?_alike
  keySet := Json.format_of Token.KeySet.ofJson?_toJson fun _ _ => Token.KeySet.ofJson?_of_alike
  written c := by
    obtain ⟨members, hmembers, hnames⟩ := c.map_fst_toJson
    exact ⟨members, hmembers ▸ Json.isText_write c.toJson, hnames⟩

namespace Sample

def bareClaims : Token.Claims where
  subject := -1
  session := "\"\\\n\x01😀"
  issuedAt := 0
  expiresAt := 86400
  issuer := none
  audience := none
  subjectText := none

/-- Its members in reverse, behind two that no claim is read from. -/
def shuffled : List (Option String × Json) :=
  [Json.member "Exp" .null, Json.member "nonce" (.array [.string none, .decimal true 1 999])] ++
    [Json.member "exp" (.integer 86400), Json.member "iat" (.integer 0),
      Json.member "sessionId" (.text bareClaims.session), Json.member "subjectId" (.integer (-1))]

end Sample

theorem wireFormats_sample :
    Json.decode? Token.Claims.ofJson? (Json.writeIndented (.object Sample.shuffled)) =
      some Sample.bareClaims := by
  have hreordered : Json.Reordered Token.Claims.fieldNames.flatten Sample.shuffled.tail.tail.reverse
      Sample.shuffled := by
    refine ⟨Sample.shuffled.take 2, ?_, ?_⟩
    · exact List.perm_append_comm.trans ((List.reverse_perm _).symm.append_right _)
    · rintro m (_ | ⟨_, _ | ⟨_, ⟨⟩⟩⟩)
      · exact ⟨"Exp", by decide, rfl⟩
      · exact ⟨"nonce", by decide, rfl⟩
  rw [wireFormats.claims.alike _ _ _ _ (Json.isText_write _) (Json.isText_writeIndented _)
    (.inr ⟨_, _, rfl, rfl, hreordered⟩)]
  exact wireFormats.claims.back Sample.bareClaims

end SessionGate
