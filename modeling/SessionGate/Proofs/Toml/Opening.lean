import Mathlib.Data.List.Chain
import SessionGate.Proofs.Toml.Sections

/-!
A dollar sign with a brace after it stands in a document only where it stands in one of the strings
that were written. Main statement: `noOpening_writeSections`.
-/

namespace SessionGate.Toml

/-- Two characters in a row that open no placeholder. -/
def Apart (a b : Char) : Prop := a = '$' → b ≠ '\x7b'

instance (a b : Char) : Decidable (Apart a b) := inferInstanceAs (Decidable (a = '$' → b ≠ '\x7b'))

def NoOpening (chars : List Char) : Prop := chars.IsChain Apart

instance (chars : List Char) : Decidable (NoOpening chars) :=
  inferInstanceAs (Decidable (chars.IsChain Apart))

theorem noOpening_iff {chars : List Char} : NoOpening chars ↔ ¬ ['$', '\x7b'] <:+: chars := by
  rw [NoOpening, List.isChain_iff_forall_rel_of_append_cons_cons]
  constructor
  · rintro h ⟨front, back, rfl⟩
    exact h (List.append_assoc front _ back) rfl rfl
  · rintro h a b front back rfl rfl rfl
    exact h ⟨front, back, by simp⟩

/-- No placeholder is opened, not even by a dollar sign in front. -/
def Shut (chars : List Char) : Prop := NoOpening ('$' :: chars)

theorem Shut.noOpening {chars : List Char} (h : Shut chars) : NoOpening chars :=
  (List.isChain_cons.mp h).2

theorem noOpening_append {front back : List Char} (hfront : NoOpening front) (hback : Shut back) :
    NoOpening (front ++ back) := by
  refine List.isChain_append.mpr ⟨hfront, hback.noOpening, fun a _ b hb _ => ?_⟩
  exact (List.isChain_cons.mp hback).1 b hb rfl

theorem Shut.append {front back : List Char} (hfront : Shut front) (hback : Shut back) :
    Shut (front ++ back) := noOpening_append hfront hback

theorem shut_nil : Shut [] := List.isChain_singleton _

/-- Neither of the characters that open a placeholder. -/
def isPlain (c : Char) : Bool := c != '$' && c != '\x7b'

theorem isPlain_of_ne {c : Char} (hdollar : c ≠ '$') (hbrace : c ≠ '\x7b') : isPlain c := by
  simp [isPlain, hdollar, hbrace]

theorem shut_cons {c : Char} {chars : List Char} (hc : isPlain c) (h : NoOpening chars) :
    Shut (c :: chars) := by
  simp only [isPlain, Bool.and_eq_true, bne_iff_ne] at hc
  exact List.isChain_cons_cons.mpr
    ⟨fun _ => hc.2, List.isChain_cons.mpr ⟨fun _ _ hdollar => absurd hdollar hc.1, h⟩⟩

theorem noOpening_plain {front back : List Char} (hfront : front.all isPlain)
    (hback : NoOpening back) : NoOpening (front ++ back) := by
  induction front with
  | nil => exact hback
  | cons c front ih =>
    obtain ⟨hc, hfront⟩ := Bool.and_eq_true_iff.mp hfront
    exact (shut_cons hc (ih hfront)).noOpening

/-- After a dollar sign and something else nothing is opened, whatever is before it. -/
theorem shut_dollar {text rest : List Char} (hne : text ≠ []) (htext : text.all isPlain)
    (hrest : NoOpening rest) : Shut ('$' :: (text ++ rest)) := by
  cases text with
  | nil => exact absurd rfl hne
  | cons c text =>
    obtain ⟨hc, htext⟩ := Bool.and_eq_true_iff.mp htext
    have hafter : NoOpening ('$' :: (c :: (text ++ rest))) := shut_cons hc (noOpening_plain htext hrest)
    exact List.isChain_cons_cons.mpr ⟨fun _ => by decide, hafter⟩

theorem shut_plain {chars : List Char} (h : chars.all isPlain) : Shut chars := by
  cases chars with
  | nil => exact shut_nil
  | cons c chars =>
    obtain ⟨hc, hchars⟩ := Bool.and_eq_true_iff.mp h
    refine shut_cons hc ?_
    rw [← List.append_nil chars]
    exact noOpening_plain hchars shut_nil.noOpening

theorem shut_flatten {texts : List (List Char)} (h : ∀ text ∈ texts, Shut text) :
    Shut texts.flatten := by
  induction texts with
  | nil => exact shut_nil
  | cons text texts ih =>
    obtain ⟨htext, htexts⟩ := List.forall_mem_cons.mp h
    exact htext.append (ih htexts)

theorem shut_intersperse {sep : List Char} (hsep : Shut sep) {texts : List (List Char)}
    (h : ∀ text ∈ texts, Shut text) : Shut (texts.intersperse sep).flatten := by
  induction texts with
  | nil => exact shut_nil
  | cons text texts ih =>
    obtain ⟨htext, htexts⟩ := List.forall_mem_cons.mp h
    cases texts with
    | nil =>
      rw [List.intersperse_singleton, List.flatten_singleton]
      exact htext
    | cons next texts =>
      rw [List.intersperse_cons_cons, List.flatten_cons, List.flatten_cons]
      exact htext.append (hsep.append (ih htexts))

/-- Where a character stands raw in a basic string, so does the one after it. -/
theorem isChain_basicChars (lines : Bool) (quotes run : Nat) {a : Char} {chars : List Char}
    (h : NoOpening (a :: chars)) : NoOpening (a :: basicChars lines quotes run chars) := by
  induction chars generalizing a run with
  | nil => exact List.isChain_singleton a
  | cons c chars ih =>
    obtain ⟨hac, hchars⟩ := List.isChain_cons_cons.mp h
    obtain ⟨text, run', hstands, hbasic⟩ := stands_basicChars lines quotes run c chars
    rw [hbasic]
    cases hstands with
    | quote => exact List.isChain_cons_cons.mpr ⟨hac, ih _ hchars⟩
    | newline => exact List.isChain_cons_cons.mpr ⟨hac, ih _ hchars⟩
    | raw => exact List.isChain_cons_cons.mpr ⟨hac, ih _ hchars⟩
    | @escaped _ mark code _ hcode =>
      -- The character itself is not written, and no dollar sign or brace is in its escape.
      have hrest : NoOpening (basicChars lines quotes 0 chars) :=
        (List.isChain_cons.mp (ih 0 hchars)).2
      have hplain : (mark :: code).all isPlain := List.all_eq_true.mpr fun d hd =>
        isPlain_of_ne (ne_of_class (hcode d hd) (by decide))
          (ne_of_class (hcode d hd) (by decide))
      have hshut : Shut ('\\' :: (mark :: code ++ basicChars lines quotes 0 chars)) :=
        shut_cons (by decide) (noOpening_plain hplain hrest)
      exact noOpening_append (List.isChain_singleton a) hshut

theorem noOpening_basicChars (lines : Bool) (quotes : Nat) {chars : List Char}
    (h : NoOpening chars) : NoOpening (basicChars lines quotes 0 chars) := by
  have hquote : NoOpening ('"' :: chars) := (shut_cons (by decide) h).noOpening
  exact (List.isChain_cons.mp (isChain_basicChars lines quotes 0 hquote)).2

theorem shut_stringChars {chars : List Char} (h : NoOpening chars) : Shut (stringChars chars) := by
  have hone : ∀ {c : Char} {body : List Char}, isPlain c → NoOpening body →
      Shut (c :: body ++ [c]) := fun hc hbody =>
    shut_cons hc (noOpening_append hbody (shut_plain (by simp [hc])))
  have hmany : ∀ {c : Char} {body : List Char}, isPlain c → NoOpening body →
      Shut ([c, c, c] ++ (if chars.contains '\n' then ['\n'] else []) ++ body ++ [c, c, c]) := by
    intro c body hc hbody
    have hmarks : [c, c, c].all isPlain := by simp [hc]
    have hstart : ([c, c] ++ (if chars.contains '\n' then ['\n'] else [])).all isPlain := by
      split <;> simp [hc, isPlain_of_ne]
    exact shut_cons hc (noOpening_append (noOpening_plain hstart hbody) (shut_plain hmarks))
  unfold stringChars
  cases formOf chars with
  | basic => exact hone (by decide) (noOpening_basicChars _ _ h)
  | literal => exact hone (by decide) h
  | basicLines => exact hmany (by decide) (noOpening_basicChars _ _ h)
  | literalLines => exact hmany (by decide) h

/-- Every string in a value is without an opening. -/
inductive Unopened : Toml → Prop
  | string {text : String} (h : NoOpening text.toList) : Unopened (.string text)
  | integer (n : Int) : Unopened (.integer n)
  | boolean (b : Bool) : Unopened (.boolean b)
  | array {items : List Toml} (h : ∀ v ∈ items, Unopened v) : Unopened (.array items)
  | table {entries : List (String × Toml)} (h : ∀ e ∈ entries, Unopened e.2) :
      Unopened (.table entries)

theorem shut_scalar {v : Toml} (hv : Scalar v) (h : Unopened v) : Shut (inlineChars v) := by
  cases h with
  | string h => exact shut_stringChars h
  | integer n =>
    refine shut_plain (List.all_eq_true.mpr fun c hc => ?_)
    have hword := isWordChar_of_mem_writeInt hc
    exact isPlain_of_ne (ne_of_class hword (by decide)) (ne_of_class hword (by decide))
  | boolean b => cases b <;> exact shut_plain (by decide)
  | array => cases hv
  | table => cases hv

theorem shut_inlineItems {items : List Toml} (hitems : ∀ v ∈ items, Scalar v)
    (h : ∀ v ∈ items, Unopened v) : Shut (inlineItems items) := by
  induction items with
  | nil => exact shut_nil
  | cons v items ih =>
    obtain ⟨hv, hitems⟩ := List.forall_mem_cons.mp hitems
    obtain ⟨hplain, hplains⟩ := List.forall_mem_cons.mp h
    rw [inlineItems]
    have hend : Shut [',', '\n'] := shut_plain (by decide)
    exact ((shut_plain (by decide)).append (shut_scalar hv hplain)).append
      (hend.append (ih hitems hplains))

theorem shut_flat {v : Toml} (hv : Flat v) (h : Unopened v) : Shut (inlineChars v) := by
  cases hv with
  | scalar hv => exact shut_scalar hv h
  | @array items hitems =>
    cases h with
    | array h =>
      match items with
      | [] => exact shut_plain (by simp [inlineChars]; decide)
      | [v] =>
        have hopen : Shut ['['] := shut_plain (by decide)
        have hclose : Shut [']'] := shut_plain (by decide)
        have hv := shut_scalar (hitems v List.mem_cons_self) (h v List.mem_cons_self)
        rw [inlineChars]
        exact (hopen.append hv).append hclose
      | v :: w :: more =>
        have hopen : Shut ['[', '\n'] := shut_plain (by decide)
        have hclose : Shut [']'] := shut_plain (by decide)
        rw [inlineChars]
        exact (hopen.append (shut_inlineItems hitems h)).append hclose

theorem shut_key {key : String} (h : isBareKey key) : Shut (keyChars key) := by
  rw [keyChars, if_pos h]
  refine shut_plain (List.all_eq_true.mpr fun c hc => ?_)
  have hbare := isBareChar_of_mem h c hc
  exact isPlain_of_ne (ne_of_class hbare (by decide)) (ne_of_class hbare (by decide))

theorem shut_line {key : String} {v : Toml} (hbare : isBareKey key) (hv : Flat v) (h : Unopened v) :
    Shut (lineChars (key, v)) := by
  have hequals : Shut [' ', '=', ' '] := shut_plain (by decide)
  have hend : Shut ['\n'] := shut_plain (by decide)
  exact (((shut_key hbare).append hequals).append (shut_flat hv h)).append hend

theorem shut_lines {entries : List (String × Toml)} (ht : FlatTable entries)
    (h : ∀ e ∈ entries, Unopened e.2) : Shut (entries.flatMap lineChars) := by
  rw [List.flatMap]
  refine shut_flatten fun text htext => ?_
  obtain ⟨e, he, rfl⟩ := List.mem_map.mp htext
  exact shut_line (ht.bare e he) (ht.flat e he) (h e he)

theorem shut_headed {opening closing : List Char} {path : List String}
    {entries : List (String × Toml)} (hopening : opening.all isPlain)
    (hclosing : closing.all isPlain) (hpath : ∀ key ∈ path, isBareKey key)
    (ht : FlatTable entries) (h : ∀ e ∈ entries, Unopened e.2) :
    Shut (headedChars opening closing path entries) := by
  have hkeys : Shut (pathChars path) := by
    refine shut_intersperse (shut_plain (by decide)) fun text htext => ?_
    obtain ⟨key, hkey, rfl⟩ := List.mem_map.mp htext
    exact shut_key (hpath key hkey)
  have hend : Shut ['\n'] := shut_plain (by decide)
  exact ((((shut_plain hopening).append hkeys).append (shut_plain hclosing)).append hend).append
    (shut_lines ht h)

theorem shut_arraySections {name key : String} {v : Toml} (hname : isBareKey name)
    (hkey : isBareKey key) (hv : Member v) (h : Unopened v) :
    ∀ text ∈ arraySections name (key, v), Shut text := by
  cases hv with
  | flat hflat =>
    rw [arraySections_flat hflat]
    exact fun _ htext => (List.not_mem_nil htext).elim
  | @tables items hne hitems =>
    cases h with
    | array h =>
      rw [arraySections_tables hne]
      intro text htext
      obtain ⟨entries, hentries, rfl⟩ := List.mem_map.mp htext
      cases h _ (List.mem_map_of_mem hentries) with
      | table h =>
        exact shut_headed (by decide) (by decide) (by simp [hname, hkey]) (hitems entries hentries) h

theorem shut_sections {tables : List (String × List (String × Toml))} (hs : Sectioned tables)
    (h : ∀ t ∈ tables, ∀ e ∈ t.2, Unopened e.2) :
    ∀ text ∈ sections (tables.map fun t => (t.1, .table t.2)), Shut text := by
  induction tables with
  | nil => exact fun _ htext => (List.not_mem_nil htext).elim
  | cons t tables ih =>
    obtain ⟨hbare, hbares⟩ := List.forall_mem_cons.mp hs.bare
    obtain ⟨htable, htables⟩ := List.forall_mem_cons.mp hs.table
    obtain ⟨hopen, hopens⟩ := List.forall_mem_cons.mp h
    have hmore := ih ⟨hbares, htables, (List.nodup_cons.mp hs.nodup).2⟩ hopens
    have hvalues : Shut (headedChars ['['] [']'] [t.1] (t.2.filter fun e => !isSection e.2)) :=
      shut_headed (by decide) (by decide) (by simp [hbare]) htable.flatTable
        fun e he => hopen e (List.mem_filter.mp he).1
    have harrays : ∀ text ∈ t.2.flatMap (arraySections t.1), Shut text := by
      intro text htext
      obtain ⟨e, he, htext⟩ := List.mem_flatMap.mp htext
      exact shut_arraySections hbare (htable.bare e he) (htable.member e he) (hopen e he) text htext
    rw [List.map_cons, sections_cons]
    exact List.forall_mem_append.mpr ⟨List.forall_mem_cons.mpr ⟨hvalues, harrays⟩, hmore⟩

theorem noOpening_writeSections {tables : List (String × List (String × Toml))}
    (hs : Sectioned tables) (h : ∀ t ∈ tables, ∀ e ∈ t.2, Unopened e.2) :
    NoOpening (writeSections (tables.map fun t => (t.1, .table t.2))).toList := by
  rw [writeSections, String.toList_ofList]
  exact (shut_intersperse (shut_plain (by decide)) (shut_sections hs h)).noOpening

end SessionGate.Toml
