import SessionGate.Proofs.Config.Filling

/-!
Every text is cut by its placeholders in one way: into parts that hold none and, between them, the
placeholders from left to right, each the first that starts behind the one before it. Replacing them
keeps the parts and puts a value in place of each placeholder, so that nothing that is put in is looked
at again. Main statement: `onePass`.
-/

namespace SessionGate.Config

/-- No placeholder stands in a text. -/
def Free (text : List Char) : Prop := ∀ p : Placeholder, p.WellFormed → ¬ p.chars <:+: text

/-- A placeholder starts in a text behind so many of its characters. -/
def StartsAt (text : List Char) (n : Nat) (p : Placeholder) : Prop :=
  p.WellFormed ∧ p.chars <+: text.drop n

/-- No placeholder starts in a text before so many of its characters. -/
def FreeBefore (text : List Char) (n : Nat) : Prop := ∀ m p, StartsAt text m p → n ≤ m

/-- A part of a text, and the placeholders behind it, each with the part that follows it. -/
structure Cut where
  front : List Char
  others : List (Placeholder × List Char)

namespace Cut

def chars (c : Cut) : List Char := c.front ++ c.others.flatMap fun (p, part) => p.chars ++ part

/-- Each placeholder gives way to the value of its variable, or else to its default if it has one. -/
def filled (c : Cut) (environment : String → Option String) : List Char :=
  c.front ++ c.others.flatMap fun (p, part) =>
    ((environment (String.ofList p.name)).map String.toList).getD (p.fallback.getD []) ++ part

end Cut

theorem Placeholder.value_eq (environment : String → Option String) (p : Placeholder) :
    p.value environment =
      ((environment (String.ofList p.name)).map String.toList).getD (p.fallback.getD []) := by
  rw [value]
  cases environment (String.ofList p.name) <;> rfl

inductive IsCut : List Char → Cut → Prop
  | last {text : List Char} (free : Free text) : IsCut text ⟨text, []⟩
  | next {text front part rest : List Char} {p : Placeholder} {others : List (Placeholder × List Char)}
    (split : text = front ++ (p.chars ++ rest)) (wellFormed : p.WellFormed) (free : Free front)
    (first : FreeBefore text front.length) (behind : IsCut rest ⟨part, others⟩) :
    IsCut text ⟨front, (p, part) :: others⟩

section

variable {text front rest : List Char} {c : Char} {p : Placeholder} {n : Nat}

theorem startsAt_zero_iff : StartsAt text 0 p ↔ ∃ rest, Placeholder.read? text = some (p, rest) := by
  constructor
  · rintro ⟨hp, rest, rfl⟩
    exact ⟨rest, Placeholder.read?_chars hp rest⟩
  · rintro ⟨rest, hread⟩
    exact ⟨Placeholder.wellFormed_of_read? hread, rest, (Placeholder.eq_append_of_read? hread).symm⟩

theorem StartsAt.append (h : StartsAt text n p) (more : List Char) : StartsAt (text ++ more) n p := by
  refine ⟨h.1, h.2.trans ?_⟩
  rw [List.drop_append]
  exact List.prefix_append _ _

theorem StartsAt.lt_length (h : StartsAt text n p) : n < text.length := by
  by_contra hle
  have hstart := h.2
  rw [List.drop_eq_nil_of_le (Nat.not_lt.mp hle)] at hstart
  cases List.prefix_nil.mp hstart

theorem free_iff : Free text ↔ ∀ n p, ¬ StartsAt text n p := by
  constructor
  · rintro hfree n p ⟨hp, hstart⟩
    exact hfree p hp (hstart.isInfix.trans (List.drop_suffix n text).isInfix)
  · rintro hnone p hp ⟨before, after, rfl⟩
    refine hnone before.length p ⟨hp, after, ?_⟩
    rw [List.append_assoc, List.drop_left]

/-- What starts in a part of a text starts in the text. -/
theorem FreeBefore.free (h : FreeBefore (front ++ rest) front.length) : Free front :=
  free_iff.mpr fun n p hstart => absurd hstart.lt_length (Nat.not_lt.mpr (h n p (hstart.append rest)))

theorem FreeBefore.cons (hread : Placeholder.read? (c :: text) = none) (h : FreeBefore text n) :
    FreeBefore (c :: text) (n + 1) := by
  rintro (_ | m) p hstart
  · obtain ⟨after, hp⟩ := startsAt_zero_iff.mp hstart
    cases hread.symm.trans hp
  · exact Nat.succ_le_succ (h m p hstart)

theorem FreeBefore.read?_eq_none (h : FreeBefore text (n + 1)) : Placeholder.read? text = none := by
  rw [Option.eq_none_iff_forall_ne_some]
  rintro ⟨p, after⟩ hread
  exact absurd (h 0 p (startsAt_zero_iff.mpr ⟨after, hread⟩)) (Nat.not_succ_le_zero n)

/-- Text in front of the first placeholder is kept, whatever comes then. -/
theorem expand_front {environment : String → Option String}
    (h : FreeBefore (front ++ rest) front.length) :
    expand environment (front ++ rest) = front ++ expand environment rest := by
  induction front with
  | nil => rfl
  | cons c front ih =>
    have hread : Placeholder.read? (c :: (front ++ rest)) = none := h.read?_eq_none
    rw [List.cons_append, expand_cons hread,
      ih fun m p hstart => Nat.le_of_succ_le_succ (h (m + 1) p hstart)]
    rfl

namespace IsCut

variable {k k' : Cut}

theorem chars_eq (h : IsCut text k) : k.chars = text := by
  induction h with
  | last _ => exact List.append_nil _
  | next hsplit _ _ _ _ ih =>
    rw [hsplit, ← ih]
    simp only [Cut.chars, List.flatMap_cons, List.append_assoc]

theorem expand_eq (h : IsCut text k) (environment : String → Option String) :
    expand environment text = k.filled environment := by
  induction h with
  | last hfree => rw [expand_eq_self hfree, Cut.filled, List.flatMap_nil, List.append_nil]
  | next hsplit hp _ hfirst _ ih =>
    subst hsplit
    rw [expand_front hfirst, expand_of_read? (Placeholder.read?_chars hp _), ih]
    simp only [Cut.filled, List.flatMap_cons, List.append_assoc, Placeholder.value_eq]

/-- A character from which no placeholder starts belongs to the part behind it. -/
theorem cons {others : List (Placeholder × List Char)} (hread : Placeholder.read? (c :: text) = none)
    (h : IsCut text ⟨front, others⟩) : IsCut (c :: text) ⟨c :: front, others⟩ := by
  cases h with
  | last hfree =>
    have hbefore : FreeBefore text text.length := fun m p hstart =>
      absurd hstart (free_iff.mp hfree m p)
    have hwhole := hbefore.cons hread
    rw [← List.append_nil (c :: text)] at hwhole
    exact .last hwhole.free
  | next hsplit hp hfree hfirst hbehind =>
    have hsplit' := congrArg (List.cons c) hsplit
    have hfirst' := hfirst.cons hread
    exact .next hsplit' hp (FreeBefore.free (hsplit' ▸ hfirst')) hfirst' hbehind

theorem unique (h : IsCut text k) (h' : IsCut text k') : k = k' := by
  induction h generalizing k' with
  | last hfree =>
    cases h' with
    | last _ => rfl
    | @next _ front _ rest q _ hsplit hq _ _ _ =>
      exact absurd ⟨front, rest, by rw [hsplit, List.append_assoc]⟩ (hfree q hq)
  | @next text front part rest p others hsplit hp _ hfirst _ ih =>
    cases h' with
    | last hfree' => exact absurd ⟨front, rest, by rw [hsplit, List.append_assoc]⟩ (hfree' p hp)
    | @next _ front' part' rest' q others' hsplit' hq _ hfirst' hbehind' =>
      have hstart : StartsAt text front.length p := by
        refine ⟨hp, rest, ?_⟩
        rw [hsplit, List.drop_left]
      have hstart' : StartsAt text front'.length q := by
        refine ⟨hq, rest', ?_⟩
        rw [hsplit', List.drop_left]
      have hlength : front.length = front'.length :=
        Nat.le_antisymm (hfirst _ _ hstart') (hfirst' _ _ hstart)
      obtain ⟨rfl, hmore⟩ := List.append_inj (hsplit.symm.trans hsplit') hlength
      have hread := Placeholder.read?_chars hp rest
      rw [hmore, Placeholder.read?_chars hq rest'] at hread
      obtain ⟨rfl, rfl⟩ := Prod.mk.inj (Option.some.inj hread)
      cases ih hbehind'
      rfl

end IsCut

theorem exists_isCut (text : List Char) : ∃ k, IsCut text k := by
  induction text using expand.induct with
  | case1 =>
    have hfree : Free [] := free_iff.mpr fun n p hstart => absurd hstart.lt_length (Nat.not_lt_zero n)
    exact ⟨_, .last hfree⟩
  | case2 c text p rest hread ih =>
    obtain ⟨⟨part, others⟩, hcut⟩ := ih
    have hsplit : c :: text = [] ++ (p.chars ++ rest) := Placeholder.eq_append_of_read? hread
    have hfirst : FreeBefore (c :: text) 0 := fun m _ _ => Nat.zero_le m
    exact ⟨_, .next hsplit (Placeholder.wellFormed_of_read? hread) (FreeBefore.free (hsplit ▸ hfirst))
      hfirst hcut⟩
  | case3 c text hread ih =>
    obtain ⟨⟨front, others⟩, hcut⟩ := ih
    exact ⟨_, hcut.cons hread⟩

end

/-- A text between the marks of a placeholder. -/
def opened (body : List Char) : List Char := '$' :: '\x7b' :: (body ++ ['\x7d'])

theorem Placeholder.WellFormed.exists_body {p : Placeholder} (h : p.WellFormed) :
    ∃ body, '\x7d' ∉ body ∧ p.chars = opened body := by
  have hname : '\x7d' ∉ p.name := fun hmem => absurd (h.name _ hmem) (by decide)
  obtain ⟨name, fallback⟩ := p
  cases fallback with
  | none => exact ⟨name, hname, by simp [chars, opened]⟩
  | some text =>
    have htext : '\x7d' ∉ text := h.fallback text rfl
    exact ⟨name ++ ':' :: '-' :: text, by simp [hname, htext], by simp [chars, opened]⟩

theorem opened_inj {body body' rest rest' : List Char} (h : '\x7d' ∉ body) (h' : '\x7d' ∉ body')
    (heq : opened body ++ rest = opened body' ++ rest') : body = body' := by
  have htake : ∀ {body rest : List Char}, '\x7d' ∉ body →
      (body ++ '\x7d' :: rest).takeWhile (· ≠ '\x7d') = body := by
    intro body rest hbody
    have hall : ∀ c ∈ body, decide (c ≠ '\x7d') = true :=
      fun c hc => decide_eq_true (ne_of_mem_of_not_mem hc hbody)
    rw [List.takeWhile_append_of_pos hall, List.takeWhile_cons_of_neg (by simp), List.append_nil]
  have hbodies : body ++ '\x7d' :: rest = body' ++ '\x7d' :: rest' := by
    simpa [opened] using heq
  rw [← htake h, hbodies, htake h']

/-- An opening that is no placeholder's stays as it is, and so does what it encloses. -/
theorem fills_opened {environment : String → Option String} {body : List Char} (hdollar : '$' ∉ body)
    (hbrace : '\x7d' ∉ body) (hnone : ∀ p : Placeholder, p.WellFormed → p.chars ≠ opened body) :
    Fills environment (opened body) (opened body) := by
  intro rest
  refine expand_front fun m p hstart => Nat.not_lt.mp fun hlt => ?_
  obtain ⟨within, hwithin, hchars⟩ := hstart.1.exists_body
  obtain ⟨after, hafter⟩ := hstart.2
  rw [hchars] at hafter
  cases m with
  | zero => exact hnone p hstart.1 (hchars.trans (congrArg opened (opened_inj hwithin hbrace hafter)))
  | succ m =>
    -- Behind the mark that opens it there is no other such mark.
    have hmark : '$' ∉ '\x7b' :: (body ++ ['\x7d']) := by
      simpa using hdollar
    have hle : m < ('\x7b' :: (body ++ ['\x7d'])).length := Nat.lt_of_succ_lt_succ hlt
    change _ = List.drop m ('\x7b' :: (body ++ ['\x7d']) ++ rest) at hafter
    rw [List.drop_append_of_le_length hle.le, List.drop_eq_getElem_cons hle] at hafter
    obtain ⟨hhead, -⟩ := List.cons.inj hafter
    exact hmark (hhead ▸ List.getElem_mem hle)

/-- How placeholders are replaced in a text: along its one cut, whatever is put in. Text that holds none
stays as it is, and so does an opening that is no placeholder's. -/
structure OnePass (content : String) : Prop where
  cut : ∃! k, IsCut content.toList k
  whole : ∀ k, IsCut content.toList k → k.chars = content.toList
  filled : ∀ k, IsCut content.toList k → ∀ environment,
    interpolate environment content = String.ofList (k.filled environment)
  untouched : ¬ HoldsPlaceholder content → ∀ environment, interpolate environment content = content
  malformed : ∀ body rest, content.toList = opened body ++ rest → '$' ∉ body → '\x7d' ∉ body →
    (∀ p : Placeholder, p.WellFormed → p.chars ≠ opened body) → ∀ environment,
    interpolate environment content =
      String.ofList (opened body) ++ interpolate environment (String.ofList rest)

theorem onePass (content : String) : OnePass content where
  cut := by
    obtain ⟨k, hcut⟩ := exists_isCut content.toList
    exact ⟨k, hcut, fun k' hcut' => hcut'.unique hcut⟩
  whole k hcut := hcut.chars_eq
  filled k hcut environment := by
    rw [interpolate, hcut.expand_eq]
  untouched hnone environment := interpolate_eq_self hnone
  malformed body rest hcontent hdollar hbrace hnone environment := by
    rw [interpolate, hcontent, fills_opened hdollar hbrace hnone, String.ofList_append, interpolate,
      String.toList_ofList]

namespace Sample

def setting : Placeholder := { name := ['S', 'E', 'T'], fallback := none }

/-- The value makes a placeholder of its own name with a mark before it. -/
def braced (name : String) : Option String := [("SET", "\x7bSET\x7d")].lookup name

end Sample

theorem isCut_setting : IsCut ('$' :: (Sample.setting.chars ++ ['!']))
    ⟨['$'], [(Sample.setting, ['!'])]⟩ := by
  have hfirst : ∀ text, FreeBefore text 0 := fun _ m _ _ => Nat.zero_le m
  have hnil : Free [] := FreeBefore.free (hfirst ([] ++ []))
  have hsetting : Sample.setting.WellFormed := Placeholder.wellFormed_of rfl rfl (List.not_mem_nil)
  have hbehind : IsCut ['!'] ⟨['!'], []⟩ := .cons rfl (.last hnil)
  exact .cons rfl (.next rfl hsetting hnil (hfirst _) hbehind)

theorem onePass_sample : interpolate Sample.braced "$\x7blower\x7d$$\x7bSET\x7d!" =
    "$\x7blower\x7d$\x7bSET\x7d!" := by
  have hlower : ∀ p : Placeholder, p.WellFormed → p.chars ≠ opened "lower".toList := by
    intro p hp hchars
    have hread := Placeholder.read?_chars hp []
    rw [hchars] at hread
    cases hread
  rw [(onePass _).malformed "lower".toList ('$' :: (Sample.setting.chars ++ ['!'])) rfl (by decide)
    (by decide) hlower, (onePass _).filled ⟨['$'], [(Sample.setting, ['!'])]⟩]
  · decide
  · exact isCut_setting

end SessionGate.Config
