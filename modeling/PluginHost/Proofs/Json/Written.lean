/-
  PluginHost.Proofs.Json.Written

  JSON text read as what it was written for.  A part of a text that reads as a document by
  itself is said to spell that document (`Spells`).  What follows it must not go on with
  it, as more digits go on with a number (`Ends`).  Quoted texts spell documents, and so do
  lists and records of parts that do, with blanks around the commas between them
  (`Separated`) or, as the library writes them, without.
-/
import Mathlib.Data.List.Forall2
import PluginHost.Call.Envelope
import PluginHost.Proofs.Text.Hex

namespace PluginHost
namespace Json

open Reader

/-! ## Texts -/

theorem hexValue?_digit {n : Nat} (h : n < 16) : hexValue? (Hex.digit n) = some n :=
  (Hex.digit_spec h).2

/-- The escape of a character is read as that character, unless half a pair of code
    units comes before it. -/
theorem readText_escape {t : TextDraft} (ht : t.half = none) (c : Char) (rest : List Char) :
    readText t (Value.escape c ++ rest) = readText (t.push c) rest := by
  unfold Value.escape
  split
  · subst_vars; simp [readText, shortEscape?]
  split
  · subst_vars; simp [readText, shortEscape?]
  split
  · subst_vars; simp [readText, shortEscape?]
  split
  · subst_vars; simp [readText, shortEscape?]
  split
  · subst_vars; simp [readText, shortEscape?]
  split
  · subst_vars; simp [readText, shortEscape?]
  split
  · subst_vars; simp [readText, shortEscape?]
  split
  · rename_i hcontrol
    -- A control character is given by its code unit.
    have hhigh := hexValue?_digit (n := c.toNat / 16) (by omega)
    have hlow := hexValue?_digit (n := c.toNat % 16) (by omega)
    have hunit : codeUnit? '0' '0' (Hex.digit (c.toNat / 16)) (Hex.digit (c.toNat % 16))
        = some c.toNat := by
      have hzero : hexValue? '0' = some 0 := rfl
      simp [codeUnit?, hhigh, hlow, hzero]
      omega
    have hpush : t.pushUnit c.toNat = t.push c := by
      have hno : ¬ (0xD800 ≤ c.toNat ∧ c.toNat < 0xDC00) := by omega
      have hno' : ¬ (0xDC00 ≤ c.toNat ∧ c.toNat < 0xE000) := by omega
      rw [TextDraft.pushUnit, ht]
      simp only [if_neg hno, if_neg hno']
      rw [TextDraft.push, ht, Char.ofNat_toNat, Option.isSome_none, Bool.or_false]
    simp only [List.cons_append, List.nil_append, readText, hunit, hpush]
  · rename_i hquote hback _ _ _ _ _ hplain
    rw [List.cons_append, List.nil_append, readText]
    · rw [if_neg hquote, if_neg (not_or.2 ⟨hback, hplain⟩)]
    all_goals
      intros
      simp_all

theorem half_push (t : TextDraft) (c : Char) : (t.push c).half = none :=
  rfl

/-- A text is read up to the quote that closes it. -/
theorem readText_escaped {t : TextDraft} (ht : t.half = none) (cs rest : List Char) :
    readText t (cs.flatMap Value.escape ++ '"' :: rest)
      = some ((cs.foldl TextDraft.push t).finish, rest) := by
  induction cs generalizing t with
  | nil =>
    rw [List.flatMap_nil, List.nil_append, readText, if_pos rfl]
    · rfl
    all_goals
      intros
      simp_all
  | cons c cs ih =>
    rw [List.flatMap_cons, List.append_assoc, readText_escape ht, ih (half_push t c)]
    rfl

theorem foldl_push (chars : List Char) (cs : List Char) :
    cs.foldl TextDraft.push ⟨chars, none, false⟩ = ⟨cs.reverse ++ chars, none, false⟩ := by
  induction cs generalizing chars with
  | nil => rfl
  | cons c cs ih =>
    rw [List.foldl_cons]
    change cs.foldl TextDraft.push ⟨c :: chars, none, false⟩ = _
    rw [ih, List.reverse_cons, List.append_assoc]
    rfl

/-- A text that is written between quotes is read. -/
theorem readText_quote (s : String) (rest : List Char) :
    readText {} (s.toList.flatMap Value.escape ++ '"' :: rest) = some (some s, rest) := by
  rw [readText_escaped rfl, foldl_push]
  simp [TextDraft.finish]

/-! ## Documents -/

/-- Whether a number before a text has ended there. -/
def Ends (rest : List Char) : Prop :=
  ∀ c ∈ rest.head?, Number.digit? c = none ∧ c ≠ '.' ∧ c ≠ 'e' ∧ c ≠ 'E'

theorem ends_nil : Ends [] := by
  simp [Ends]

theorem ends_comma (rest : List Char) : Ends (',' :: rest) := by
  simp [Ends, Number.digit?]

theorem ends_bracket (rest : List Char) : Ends (']' :: rest) := by
  simp [Ends, Number.digit?]

theorem ends_brace (rest : List Char) : Ends ('\x7d' :: rest) := by
  simp [Ends, Number.digit?]

/-- Characters that are read as a document.  They begin with something, which is no blank;
    fuel for each of them is enough. -/
structure Spells (cs : List Char) (d : Document) : Prop where
  starts : ∃ c rest, cs = c :: rest ∧ isBlank c = false
  reads : ∀ fuel rest, cs.length ≤ fuel → Ends rest → readValue fuel (cs ++ rest) = (d, some rest)

theorem skipBlanks_cons {c : Char} (h : isBlank c = false) (cs : List Char) :
    skipBlanks (c :: cs) = c :: cs := by
  rw [Reader.skipBlanks, h]
  rfl

/-- There are no blanks to be passed over before it. -/
theorem Spells.skipBlanks {cs : List Char} {d : Document} (h : Spells cs d) (rest : List Char) :
    skipBlanks (cs ++ rest) = cs ++ rest := by
  obtain ⟨c, more, rfl, hc⟩ := h.starts
  exact skipBlanks_cons hc (more ++ rest)

/-- The first character is read with the first piece of fuel. -/
theorem Spells.of_cons {c : Char} {cs : List Char} {d : Document} (hc : isBlank c = false)
    (h : ∀ fuel rest, cs.length ≤ fuel → Ends rest →
      readValue (fuel + 1) (c :: (cs ++ rest)) = (d, some rest)) : Spells (c :: cs) d where
  starts := ⟨c, cs, rfl, hc⟩
  reads fuel rest hfuel hrest := by
    cases fuel with
    | zero => cases hfuel
    | succ fuel => exact h fuel rest (Nat.le_of_succ_le_succ hfuel) hrest

theorem spells_quote (s : String) : Spells (Value.quote s) (.text s) := by
  rw [Value.quote, List.cons_append]
  refine .of_cons rfl fun fuel rest _ _ => ?_
  have hread := readText_quote s rest
  simp only [List.append_assoc, List.cons_append, List.nil_append, readValue, if_true, hread]

/-! ## Blanks and commas -/

/-- Blanks, and nothing else. -/
def Blanks (w : List Char) : Prop :=
  ∀ c ∈ w, isBlank c = true

instance (w : List Char) : Decidable (Blanks w) :=
  decidable_of_iff (w.all isBlank = true) List.all_eq_true

theorem blanks_nil : Blanks [] :=
  List.forall_mem_nil _

theorem skipBlanks_append {w : List Char} (hw : Blanks w) (cs : List Char) :
    skipBlanks (w ++ cs) = skipBlanks cs := by
  induction w with
  | nil => rfl
  | cons c w ih =>
    obtain ⟨hc, hw⟩ := List.forall_mem_cons.1 hw
    rw [List.cons_append, Reader.skipBlanks, hc]
    exact ih hw

theorem skipBlanks_blanks {w : List Char} {c : Char} (hw : Blanks w) (hc : isBlank c = false)
    (cs : List Char) : skipBlanks (w ++ c :: cs) = c :: cs :=
  (skipBlanks_append hw (c :: cs)).trans (skipBlanks_cons hc cs)

/-- A number has ended where blanks follow it. -/
theorem ends_blanks {w rest : List Char} (hw : Blanks w) (hrest : Ends rest) :
    Ends (w ++ rest) := by
  cases w with
  | nil => exact hrest
  | cons b w =>
    have hb := (List.forall_mem_cons.1 hw).1
    simp only [isBlank, Bool.or_eq_true, decide_eq_true_eq] at hb
    intro c hc
    obtain rfl : b = c := Option.some.inj hc
    obtain ((rfl | rfl) | rfl) | rfl := hb <;> simp [Number.digit?]

/-- Parts of a text with commas between them.  Blanks may stand on both sides of a comma and
    after the last part. -/
inductive Separated {α : Type} (P : List Char → α → Prop) : List Char → List α → Prop
  | one {cs w : List Char} {a : α} (h : P cs a) (hw : Blanks w) : Separated P (cs ++ w) [a]
  | more {cs w w' rest : List Char} {a : α} {as : List α} (h : P cs a) (hw : Blanks w)
      (hw' : Blanks w') (hrest : Separated P rest as) :
      Separated P (cs ++ w ++ ',' :: (w' ++ rest)) (a :: as)

section Separated
variable {α : Type} {P Q : List Char → α → Prop} {cs : List Char} {as : List α}

/-- Each part is shorter than the whole. -/
theorem Separated.imp (h : Separated P cs as)
    (himp : ∀ {part a}, part.length ≤ cs.length → P part a → Q part a) : Separated Q cs as := by
  induction h with
  | one h hw =>
    refine .one (himp ?_ h) hw
    simp only [List.length_append]
    omega
  | more h hw hw' _ ih =>
    simp only [List.length_append, List.length_cons] at himp
    refine .more (himp (by omega) h) hw hw' (ih fun hlength => himp (by omega))

theorem Separated.forall_mem {R : α → Prop} (h : Separated P cs as)
    (hall : ∀ {part a}, part.length ≤ cs.length → P part a → R a) : ∀ a ∈ as, R a := by
  have himp : Separated (fun _ a => R a) cs as := h.imp hall
  clear h hall
  induction himp with
  | one ha _ => exact List.forall_mem_singleton.2 ha
  | more ha _ _ _ ih => exact List.forall_mem_cons.2 ⟨ha, ih⟩

/-- How the first part begins, the whole begins. -/
theorem Separated.starts {S : Char → Prop} (h : Separated P cs as)
    (hstarts : ∀ {part a}, P part a → ∃ c rest, part = c :: rest ∧ S c) :
    ∃ c rest, cs = c :: rest ∧ S c := by
  cases h with
  | one h hw =>
    obtain ⟨c, rest, rfl, hc⟩ := hstarts h
    exact ⟨c, _, rfl, hc⟩
  | more h hw hw' hrest =>
    obtain ⟨c, rest, rfl, hc⟩ := hstarts h
    exact ⟨c, _, rfl, hc⟩

/-- Parts that are written without blanks. -/
theorem separated_of_forall₂ {css : List (List Char)} (h : List.Forall₂ P css as)
    (hsome : css ≠ []) : Separated P (Value.commaSeparated css) as := by
  induction h with
  | nil => exact absurd rfl hsome
  | @cons part a css as hpart htail ih =>
    cases htail with
    | nil =>
      have hone := Separated.one hpart blanks_nil
      rwa [List.append_nil] at hone
    | cons hnext htail =>
      have hmore := Separated.more hpart blanks_nil blanks_nil (ih (List.cons_ne_nil _ _))
      rwa [List.append_nil, List.nil_append] at hmore

end Separated

/-! ## Lists -/

theorem not_spells_bracket (cs : List Char) (d : Document) : ¬ Spells (']' :: cs) d := by
  intro h
  -- A bracket is no number, and reading stops at it.
  have hbroken : readValue (cs.length + 1) (']' :: (cs ++ [])) = (.broken, none) := by
    simp [readValue, readNumber, Number.readWritten, Number.takeDigits, Number.digit?]
  have hread := h.reads (cs.length + 1) [] (by simp) ends_nil
  rw [List.cons_append, hbroken] at hread
  simp at hread

/-- An item of a list is told from the end of the list by how it starts. -/
theorem Spells.starts_item {cs : List Char} {d : Document} (h : Spells cs d) :
    ∃ c rest, cs = c :: rest ∧ isBlank c = false ∧ c ≠ ']' := by
  obtain ⟨c, rest, rfl, hc⟩ := h.starts
  refine ⟨c, rest, rfl, hc, ?_⟩
  rintro rfl
  exact not_spells_bracket rest d h

/-- The items of a list are read up to its end.  Each item costs one unit of fuel besides
    what reads it. -/
theorem readItems_separated {cs : List Char} {ds : List Document} (h : Separated Spells cs ds)
    (fuel : Nat) (rest : List Char) (hfuel : cs.length + 1 ≤ fuel) :
    readItems fuel (cs ++ ']' :: rest) = (ds, true, some rest) := by
  induction h generalizing fuel with
  | one hd hw =>
    obtain ⟨n, rfl⟩ : ∃ n, fuel = n + 1 := ⟨fuel - 1, by omega⟩
    simp only [List.length_append] at hfuel
    have hread := hd.reads n _ (by omega) (ends_blanks hw (ends_bracket rest))
    have hend := skipBlanks_blanks hw (rfl : isBlank ']' = false) rest
    simp only [List.append_assoc, readItems, hread, hend]
  | @more cs w w' tail d ds hd hw hw' htail ih =>
    obtain ⟨n, rfl⟩ : ∃ n, fuel = n + 1 := ⟨fuel - 1, by omega⟩
    simp only [List.length_append, List.length_cons] at hfuel
    have hnext := ih n (by omega)
    obtain ⟨c, more, rfl, hblank, hclose⟩ := htail.starts fun h => h.starts_item
    rw [List.cons_append] at hnext
    have hends := ends_blanks hw (ends_comma (w' ++ c :: (more ++ ']' :: rest)))
    have hread := hd.reads n _ (by omega) hends
    have hcomma := skipBlanks_blanks hw (rfl : isBlank ',' = false)
      (w' ++ c :: (more ++ ']' :: rest))
    have hskip := skipBlanks_blanks hw' hblank (more ++ ']' :: rest)
    simp only [List.append_assoc, List.cons_append, readItems, hread, hcomma, hskip]
    split
    · rename_i heq
      exact absurd (List.cons.inj heq).1 hclose
    · rw [hnext]

theorem spells_empty_list {w : List Char} (hw : Blanks w) :
    Spells ('[' :: (w ++ [']'])) (.seq [] true) := by
  refine .of_cons rfl fun fuel rest _ _ => ?_
  have hend := skipBlanks_blanks hw (rfl : isBlank ']' = false) rest
  simp [readValue, hend]

/-- A list spells the documents of its items. -/
theorem spells_items {w cs : List Char} {ds : List Document} (hw : Blanks w)
    (h : Separated Spells cs ds) : Spells ('[' :: (w ++ cs ++ [']'])) (.seq ds true) := by
  refine .of_cons rfl fun fuel rest hfuel _ => ?_
  have hread := readItems_separated h fuel rest (by
    simp only [List.length_append, List.length_cons, List.length_nil] at hfuel
    omega)
  obtain ⟨c, more, rfl, hblank, hclose⟩ := h.starts fun h => h.starts_item
  rw [List.cons_append] at hread
  have hskip := skipBlanks_blanks hw hblank (more ++ ']' :: rest)
  simp [readValue, hskip, hclose, hread]

theorem spells_list {css : List (List Char)} {ds : List Document}
    (h : List.Forall₂ Spells css ds) :
    Spells ('[' :: Value.commaSeparated css ++ [']']) (.seq ds true) := by
  cases h with
  | nil => exact spells_empty_list blanks_nil
  | cons hd hds =>
    exact spells_items blanks_nil (separated_of_forall₂ (.cons hd hds) (List.cons_ne_nil _ _))

/-! ## Records -/

/-- A name as it stands between quotes is read, as far as the second of them. -/
def Names (name : List Char) (k : Option String) : Prop :=
  ∀ rest, readText {} (name ++ '"' :: rest) = some (k, rest)

/-- An entry of a record: a name between quotes, a colon and a value. -/
inductive Member (N : List Char → Option String → Prop) (P : List Char → Document → Prop) :
    List Char → Option String × Document → Prop
  | intro {name w w' cs : List Char} {k : Option String} {d : Document} (hname : N name k)
      (hw : Blanks w) (hw' : Blanks w') (h : P cs d) :
      Member N P ('"' :: (name ++ '"' :: (w ++ ':' :: (w' ++ cs)))) (k, d)

/-- Name and value are shorter than the entry. -/
theorem Member.imp {N N' : List Char → Option String → Prop} {P P' : List Char → Document → Prop}
    {cs : List Char} {e : Option String × Document} (h : Member N P cs e)
    (hname : ∀ {part k}, N part k → N' part k)
    (hvalue : ∀ {part d}, part.length ≤ cs.length → P part d → P' part d) : Member N' P' cs e := by
  cases h with
  | intro hn hw hw' h =>
    refine .intro (hname hn) hw hw' (hvalue ?_ h)
    simp only [List.length_cons, List.length_append]
    omega

/-- An entry begins with a quote. -/
theorem Member.starts {N : List Char → Option String → Prop} {P : List Char → Document → Prop}
    {cs : List Char} {e : Option String × Document} (h : Member N P cs e) :
    ∃ c rest, cs = c :: rest ∧ c = '"' := by
  cases h with
  | intro => exact ⟨_, _, rfl, rfl⟩

/-- An entry is read as far as its value, and then the text goes on. -/
theorem readEntries_member {cs : List Char} {e : Option String × Document}
    (h : Member Names Spells cs e) {fuel : Nat} (hfuel : cs.length ≤ fuel) {rest : List Char}
    (hrest : Ends rest) :
    readEntries (fuel + 1) (cs ++ rest) =
      match skipBlanks rest with
      | '\x7d' :: rest => ([e], true, some rest)
      | ',' :: rest =>
        let (es, closed, rest) := readEntries fuel (skipBlanks rest)
        (e :: es, closed, rest)
      | _ => ([e], false, none) := by
  cases h with
  | @intro name w w' cs k d hname hw hw' hvalue =>
    simp only [List.length_append, List.length_cons] at hfuel
    have hkey := hname (w ++ ':' :: (w' ++ (cs ++ rest)))
    have hcolon := skipBlanks_blanks hw (rfl : isBlank ':' = false) (w' ++ (cs ++ rest))
    have hskip := (skipBlanks_append hw' (cs ++ rest)).trans (hvalue.skipBlanks rest)
    have hread := hvalue.reads fuel rest (by omega) hrest
    have hstep := readEntries.eq_def (fuel + 1)
      ('"' :: (name ++ '"' :: (w ++ ':' :: (w' ++ (cs ++ rest)))))
    simp only [hkey, hcolon, hskip, hread] at hstep
    simp only [List.cons_append, List.append_assoc]
    exact hstep

/-- The entries of a record are read up to its end. -/
theorem readEntries_separated {cs : List Char} {es : List (Option String × Document)}
    (h : Separated (Member Names Spells) cs es) (fuel : Nat) (rest : List Char)
    (hfuel : cs.length + 1 ≤ fuel) :
    readEntries fuel (cs ++ '\x7d' :: rest) = (es, true, some rest) := by
  induction h generalizing fuel with
  | one he hw =>
    obtain ⟨n, rfl⟩ : ∃ n, fuel = n + 1 := ⟨fuel - 1, by omega⟩
    simp only [List.length_append] at hfuel
    have hend := skipBlanks_blanks hw (rfl : isBlank '\x7d' = false) rest
    have hends := ends_blanks hw (ends_brace rest)
    rw [List.append_assoc, readEntries_member he (by omega) hends, hend]
    rfl
  | @more cs w w' tail e es he hw hw' htail ih =>
    obtain ⟨n, rfl⟩ : ∃ n, fuel = n + 1 := ⟨fuel - 1, by omega⟩
    simp only [List.length_append, List.length_cons] at hfuel
    have hnext := ih n (by omega)
    obtain ⟨c, more, rfl, rfl⟩ := htail.starts Member.starts
    rw [List.cons_append] at hnext
    have hcomma := skipBlanks_blanks hw (rfl : isBlank ',' = false)
      (w' ++ '"' :: (more ++ '\x7d' :: rest))
    have hskip := skipBlanks_blanks hw' (rfl : isBlank '"' = false) (more ++ '\x7d' :: rest)
    simp only [List.append_assoc, List.cons_append]
    rw [readEntries_member he (by omega) (ends_blanks hw (ends_comma _)), hcomma]
    simp only [hskip, hnext]

theorem spells_empty_record {w : List Char} (hw : Blanks w) :
    Spells ('\x7b' :: (w ++ ['\x7d'])) (.map [] true) := by
  refine .of_cons rfl fun fuel rest _ _ => ?_
  have hend := skipBlanks_blanks hw (rfl : isBlank '\x7d' = false) rest
  simp [readValue, hend]

/-- A record spells the map of its entries. -/
theorem spells_members {w cs : List Char} {es : List (Option String × Document)} (hw : Blanks w)
    (h : Separated (Member Names Spells) cs es) :
    Spells ('\x7b' :: (w ++ cs ++ ['\x7d'])) (.map es true) := by
  refine .of_cons rfl fun fuel rest hfuel _ => ?_
  have hread := readEntries_separated h fuel rest (by
    simp only [List.length_append, List.length_cons, List.length_nil] at hfuel
    omega)
  obtain ⟨c, more, rfl, rfl⟩ := h.starts Member.starts
  rw [List.cons_append] at hread
  have hskip := skipBlanks_blanks hw (rfl : isBlank '"' = false) (more ++ '\x7d' :: rest)
  simp [readValue, hskip, hread]

/-- An entry of a record, written out. -/
def entryChars (e : String × List Char) : List Char :=
  Value.quote e.1 ++ ':' :: e.2

/-- The entries of a record and what they spell. -/
abbrev SpellEntries : List (String × List Char) → List (Option String × Document) → Prop :=
  List.Forall₂ fun e d => d.1 = some e.1 ∧ Spells e.2 d.2

theorem member_entryChars {k : String} {cs : List Char} {d : Document} (h : Spells cs d) :
    Member Names Spells (entryChars (k, cs)) (some k, d) := by
  have hmember := Member.intro (N := Names) (fun rest => readText_quote k rest) blanks_nil
    blanks_nil h
  simp only [entryChars, Value.quote, List.cons_append, List.append_assoc, List.nil_append]
  exact hmember

/-- A record that is written without blanks spells the map of what its values spell. -/
theorem spells_record {es : List (String × List Char)} {ds : List (Option String × Document)}
    (h : SpellEntries es ds) : Spells (writeRecord es).toList (.map ds true) := by
  have hchars : (writeRecord es).toList
      = '\x7b' :: (Value.commaSeparated (es.map entryChars) ++ ['\x7d']) := String.toList_ofList
  have hmembers : List.Forall₂ (Member Names Spells) (es.map entryChars) ds := by
    rw [List.forall₂_map_left_iff]
    refine h.imp ?_
    rintro ⟨k, cs⟩ ⟨k', d⟩ ⟨rfl, hcs⟩
    exact member_entryChars hcs
  rw [hchars]
  cases h with
  | nil => exact spells_empty_record blanks_nil
  | cons hed hes =>
    exact spells_members blanks_nil (separated_of_forall₂ hmembers (List.cons_ne_nil _ _))

/-! ## Whole texts -/

/-- A text that spells a document, with blanks around it, holds that document alone. -/
theorem draft_of_blanks {s : String} {w cs w' : List Char} {d : Document}
    (hs : s.toList = w ++ (cs ++ w')) (hw : Blanks w) (h : Spells cs d) (hw' : Blanks w') :
    draft s = ⟨d, true⟩ := by
  have hskip := (skipBlanks_append hw (cs ++ w')).trans (h.skipBlanks w')
  have hends := ends_blanks hw' ends_nil
  have hend := skipBlanks_append hw' []
  rw [List.append_nil] at hends hend
  have hread := h.reads (2 * s.toList.length + 2) w'
    (by simp only [hs, List.length_append]; omega) hends
  rw [← hskip, ← hs] at hread
  simp only [draft, hread, Option.map_some, hend]
  rfl

theorem draft_of_spells {s : String} {d : Document} (h : Spells s.toList d) :
    draft s = ⟨d, true⟩ :=
  draft_of_blanks (by rw [List.nil_append, List.append_nil]) blanks_nil h blanks_nil

theorem readAs_of_draft {α : Type} {s : String} {d : Document} (h : draft s = ⟨d, true⟩)
    (read : Document → Read α) : readAs read s = read d := by
  rw [readAs, h]
  cases read d <;> rfl

theorem readAs_of_spells {α : Type} {s : String} {d : Document} (h : Spells s.toList d)
    (read : Document → Read α) : readAs read s = read d :=
  readAs_of_draft (draft_of_spells h) read

theorem readFront_of_spells {α : Type} {s : String} {d : Document} (h : Spells s.toList d)
    (read : Document → Read α) : readFront read s = read d := by
  rw [readFront, draft_of_spells h]

end Json
end PluginHost
