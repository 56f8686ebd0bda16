/-
  PluginHost.Proofs.Json.Accepted

  What the reader of JSON accepts is JSON.  A document that was read to its end was read
  from characters that the grammar allows, part by part: pieces of texts, numbers, and the
  items and entries that lists and records are made of.  Together with the grammar's own
  half this says that a text holds a document if and only if it is read as that document
  and nothing else (`holds_iff`).
-/
import PluginHost.Proofs.Json.Grammar

namespace PluginHost
namespace Json
namespace Grammar

open Reader Number

/-! ## Texts -/

theorem mem_escapes_of_shortEscape? {e c : Char} (h : shortEscape? e = some c) :
    (e, c) ∈ escapes := by
  simp only [shortEscape?] at h
  split at h
  · rename_i hself
    obtain rfl := Option.some.inj h
    obtain rfl | rfl | rfl := hself <;> decide
  repeat' split at h
  all_goals cases h
  all_goals
    subst_vars
    decide

/-- A text that is closed is spelled piece by piece. -/
theorem pieces_of_readText {t : TextDraft} {cs rest : List Char} {k : Option String}
    (h : readText t cs = some (k, rest)) :
    ∃ part ps, cs = part ++ '"' :: rest ∧ Pieces part ps ∧ k = (ps.foldl Piece.add t).finish := by
  fun_induction readText t cs with
  | case1 t => cases h
  | case2 t a b c d cs u hunit ih =>
    obtain ⟨part, ps, rfl, hps, rfl⟩ := ih h
    exact ⟨_, .unit u :: ps, rfl, .cons (.unit hunit) hps, rfl⟩
  | case3 t a b c d cs hunit => cases h
  | case4 t e cs _ c hshort ih =>
    obtain ⟨part, ps, rfl, hps, rfl⟩ := ih h
    exact ⟨_, .char c :: ps, rfl, .cons (.short (mem_escapes_of_shortEscape? hshort)) hps, rfl⟩
  | case5 t e cs _ hshort => cases h
  | case6 t cs _ _ =>
    cases h
    exact ⟨[], [], rfl, .nil, rfl⟩
  | case7 t c cs _ _ hquote hbad => cases h
  | case8 t c cs _ _ hquote hgood ih =>
    obtain ⟨hback, hcontrol⟩ := not_or.1 hgood
    obtain ⟨part, ps, rfl, hps, rfl⟩ := ih h
    have hplain := isPlain_iff.2 ⟨hquote, hback, Nat.not_lt.1 hcontrol⟩
    exact ⟨_, .char c :: ps, rfl, .cons (.plain hplain) hps, rfl⟩

theorem literal_of_readText {cs rest : List Char} {k : Option String}
    (h : readText {} cs = some (k, rest)) : ∃ part, cs = part ++ '"' :: rest ∧ Literal part k := by
  obtain ⟨part, ps, rfl, hps, rfl⟩ := pieces_of_readText h
  exact ⟨part, rfl, .intro hps⟩

/-! ## Numbers -/

theorem isDigit_of_digit? {c : Char} {n : Nat} (h : digit? c = some n) :
    c.isDigit = true ∧ n = c.toNat - 48 := by
  simp only [digit?] at h
  split at h
  · rename_i hbounds
    cases h
    exact ⟨by simpa [Char.isDigit, Char.le_def] using hbounds, rfl⟩
  · cases h

theorem exists_taken {taken ds : List Nat} {cs rest : List Char}
    (h : takeDigits taken cs = (ds, rest)) :
    ∃ part, cs = part ++ rest ∧ (∀ c ∈ part, c.isDigit = true) ∧
      ds = taken.reverse ++ values part := by
  induction cs generalizing taken with
  | nil =>
    cases h
    exact ⟨[], rfl, List.forall_mem_nil _, (List.append_nil _).symm⟩
  | cons c cs ih =>
    rw [takeDigits] at h
    split at h
    · rename_i n hn
      obtain ⟨hdigit, rfl⟩ := isDigit_of_digit? hn
      obtain ⟨part, rfl, hpart, rfl⟩ := ih h
      refine ⟨c :: part, rfl, List.forall_mem_cons.2 ⟨hdigit, hpart⟩, ?_⟩
      rw [List.reverse_cons, List.append_assoc]
      rfl
    · cases h
      exact ⟨[], rfl, List.forall_mem_nil _, (List.append_nil _).symm⟩

/-- The digits at the front of a text. -/
theorem digits_of_takeDigits {ds : List Nat} {cs rest : List Char}
    (h : takeDigits [] cs = (ds, rest)) :
    ∃ part, cs = part ++ rest ∧ (∀ c ∈ part, c.isDigit = true) ∧ ds = values part :=
  exists_taken h

theorem whole_of_digits {ws : List Char} (hdigits : ∀ c ∈ ws, c.isDigit = true)
    (h : ¬ (values ws = [] ∨ (values ws).head? = some 0 ∧ 1 < (values ws).length)) : Whole ws := by
  obtain ⟨hne, hlone⟩ := not_or.1 h
  cases ws with
  | nil => exact absurd rfl hne
  | cons c cs =>
    by_cases hzero : c = '0'
    · subst hzero
      cases cs with
      | nil => exact .zero
      | cons d ds => exact absurd ⟨rfl, by simp [values]⟩ hlone
    · exact .digits hzero ⟨List.cons_ne_nil _ _, hdigits⟩

theorem fraction_of_readFraction {cs rest : List Char} {f : Option (List Nat)}
    (h : readFraction cs = some (f, rest)) : ∃ part, cs = part ++ rest ∧ Fraction part f := by
  unfold readFraction at h
  split at h
  · split at h
    · cases h
    · rename_i htake
      cases h
      obtain ⟨part, rfl, hpart, hvalues⟩ := digits_of_takeDigits htake
      rw [hvalues]
      refine ⟨'.' :: part, rfl, .present ⟨?_, hpart⟩⟩
      rintro rfl
      simp_all [values]
  · cases h
    exact ⟨[], rfl, .absent⟩

theorem digits_of_readPower {negative : Bool} {cs rest : List Char} {e : Option Int}
    (h : readPower negative cs = some (e, rest)) :
    ∃ part, cs = part ++ rest ∧ Digits part ∧
      e = some (if negative then -(ofDigits (values part) : Int) else ofDigits (values part)) := by
  unfold readPower at h
  split at h
  · cases h
  · rename_i htake
    cases h
    obtain ⟨part, rfl, hpart, hvalues⟩ := digits_of_takeDigits htake
    refine ⟨part, rfl, ⟨?_, hpart⟩, by rw [hvalues]⟩
    rintro rfl
    simp_all [values]

theorem exponent_of_readExponent {cs rest : List Char} {e : Option Int}
    (h : readExponent cs = some (e, rest)) : ∃ part, cs = part ++ rest ∧ Exponent part e := by
  cases cs with
  | nil =>
    cases h
    exact ⟨[], rfl, .absent⟩
  | cons c cs =>
    unfold readExponent at h
    dsimp only at h
    split at h
    · rename_i hletter
      split at h
      · obtain ⟨part, rfl, hpart, rfl⟩ := digits_of_readPower h
        exact ⟨_, rfl, .plus hletter hpart⟩
      · obtain ⟨part, rfl, hpart, rfl⟩ := digits_of_readPower h
        exact ⟨_, rfl, .minus hletter hpart⟩
      · obtain ⟨part, rfl, hpart, rfl⟩ := digits_of_readPower h
        exact ⟨_, rfl, .plain hletter hpart⟩
    · cases h
      exact ⟨[], rfl, .absent⟩

theorem magnitude_of_readWritten {cs rest : List Char} {w : Written}
    (h : readWritten cs = some (w, rest)) : ∃ part, cs = part ++ rest ∧ Magnitude part w := by
  rcases htake : takeDigits [] cs with ⟨ds, after⟩
  obtain ⟨ws, rfl, hdigits, rfl⟩ := digits_of_takeDigits htake
  simp only [readWritten, htake] at h
  split at h
  · cases h
  · rename_i hgood
    obtain ⟨⟨f, rest₁⟩, hf, h⟩ := Option.bind_eq_some_iff.1 h
    obtain ⟨⟨e, rest₂⟩, he, h⟩ := Option.bind_eq_some_iff.1 h
    cases h
    obtain ⟨fs, rfl, hfraction⟩ := fraction_of_readFraction hf
    obtain ⟨es, rfl, hexponent⟩ := exponent_of_readExponent he
    refine ⟨ws ++ (fs ++ es), ?_, .intro (whole_of_digits hdigits hgood) hfraction hexponent⟩
    rw [List.append_assoc, List.append_assoc]

theorem value_of_readNumber {cs rest : List Char} {d : Document} {negative : Bool}
    (h : readNumber negative cs = (d, some rest)) :
    ∃ part w, cs = part ++ rest ∧ Magnitude part w ∧ d = w.toDocument negative := by
  unfold readNumber at h
  split at h
  · rename_i hread
    cases h
    obtain ⟨part, rfl, hpart⟩ := magnitude_of_readWritten hread
    exact ⟨part, _, rfl, hpart, rfl⟩
  · cases h

/-! ## Values -/

theorem exists_blanks (cs : List Char) : ∃ w, Blanks w ∧ cs = w ++ skipBlanks cs := by
  induction cs with
  | nil => exact ⟨[], blanks_nil, rfl⟩
  | cons c cs ih =>
    cases hc : isBlank c with
    | false => exact ⟨[], blanks_nil, by rw [skipBlanks_cons hc, List.nil_append]⟩
    | true =>
      obtain ⟨w, hw, hcs⟩ := ih
      refine ⟨c :: w, List.forall_mem_cons.2 ⟨hc, hw⟩, ?_⟩
      rw [skipBlanks, hc, if_pos rfl, List.cons_append, ← hcs]

theorem eq_of_readWord {word cs rest : List Char} {d d' : Document}
    (h : readWord word d cs = (d', some rest)) : d' = d ∧ cs = word ++ rest := by
  unfold readWord at h
  split at h
  · rename_i hprefix
    cases h
    obtain ⟨more, rfl⟩ := List.isPrefixOf_iff_prefix.1 hprefix
    exact ⟨rfl, by rw [List.drop_left]⟩
  · cases h

/-- A value that is read to its end with some fuel is one of the grammar. -/
def ReadsValues (fuel : Nat) : Prop :=
  ∀ {cs d rest}, readValue fuel cs = (d, some rest) → d.isWhole = true →
    ∃ part, cs = part ++ rest ∧ Value part d

/-- So are the items of a list. -/
def ReadsItems (fuel : Nat) : Prop :=
  ∀ {cs ds rest}, readItems fuel cs = (ds, true, some rest) → Document.allWhole ds = true →
    ∃ part, cs = part ++ ']' :: rest ∧ Separated Value part ds

/-- And the entries of a record. -/
def ReadsEntries (fuel : Nat) : Prop :=
  ∀ {cs es rest}, readEntries fuel cs = (es, true, some rest) →
    Document.allEntriesWhole es = true →
    ∃ part, cs = part ++ '\x7d' :: rest ∧ Separated (Member Literal Value) part es

section Step
variable {n : Nat}

theorem readsItems_succ (hvalues : ReadsValues n) (hitems : ReadsItems n) :
    ReadsItems (n + 1) := by
  intro cs ds rest h hwhole
  rw [readItems] at h
  split at h
  · cases h
  · rename_i d more hd
    obtain ⟨w, hw, hmore⟩ := exists_blanks more
    split at h
    · -- The list ends after this item.
      rename_i hend
      cases h
      rw [Document.allWhole, Bool.and_eq_true] at hwhole
      obtain ⟨part, rfl, hpart⟩ := hvalues hd hwhole.1
      rw [hend] at hmore
      exact ⟨part ++ w, by rw [hmore, List.append_assoc], .one hpart hw⟩
    · rename_i after hcomma
      split at h
      · cases h
      · obtain ⟨w', hw', hafter⟩ := exists_blanks after
        rcases hrest : readItems n (skipBlanks after) with ⟨tail, closed, rest'⟩
        simp only [hrest] at h
        cases h
        rw [Document.allWhole, Bool.and_eq_true] at hwhole
        obtain ⟨part, rfl, hpart⟩ := hvalues hd hwhole.1
        obtain ⟨parts, hparts, htail⟩ := hitems hrest hwhole.2
        refine ⟨part ++ w ++ ',' :: (w' ++ parts), ?_, .more hpart hw hw' htail⟩
        rw [hmore, hcomma, hafter, hparts]
        simp only [List.append_assoc, List.cons_append]
    · cases h

theorem readsEntries_succ (hvalues : ReadsValues n) (hentries : ReadsEntries n) :
    ReadsEntries (n + 1) := by
  intro cs es rest h hwhole
  unfold readEntries at h
  split at h
  · split at h
    · cases h
    · rename_i k colon hname
      obtain ⟨name, rfl, hliteral⟩ := literal_of_readText hname
      obtain ⟨w, hw, hcolon⟩ := exists_blanks colon
      split at h
      · rename_i value hskip
        obtain ⟨w', hw', hvalue⟩ := exists_blanks value
        split at h
        · cases h
        · rename_i d more hd
          obtain ⟨v, hv, hmore⟩ := exists_blanks more
          -- The entry as it stands before what follows it.
          have hentry {part : List Char} (hpart : Value part d) :
              Member Literal Value ('"' :: (name ++ '"' :: (w ++ ':' :: (w' ++ part)))) (k, d) :=
            .intro hliteral hw hw' hpart
          rw [hskip] at hcolon
          split at h
          · -- The record ends after this entry.
            rename_i hend
            cases h
            rw [Document.allEntriesWhole, Bool.and_eq_true] at hwhole
            obtain ⟨part, hcut, hpart⟩ := hvalues hd hwhole.1
            refine ⟨_, ?_, .one (hentry hpart) hv⟩
            rw [hcolon, hvalue, hcut, hmore, hend]
            simp only [List.append_assoc, List.cons_append]
          · rename_i after hcomma
            obtain ⟨v', hv', hafter⟩ := exists_blanks after
            rcases hrest : readEntries n (skipBlanks after) with ⟨tail, closed, rest'⟩
            simp only [hrest] at h
            cases h
            rw [Document.allEntriesWhole, Bool.and_eq_true] at hwhole
            obtain ⟨part, hcut, hpart⟩ := hvalues hd hwhole.1
            obtain ⟨parts, hparts, htail⟩ := hentries hrest hwhole.2
            refine ⟨_, ?_, .more (hentry hpart) hv hv' htail⟩
            rw [hcolon, hvalue, hcut, hmore, hcomma, hafter, hparts]
            simp only [List.append_assoc, List.cons_append]
          · cases h
      · cases h
  · cases h

theorem value_of_text {cs rest : List Char} {k : Option String}
    (h : readText {} cs = some (k, rest)) :
    ∃ part, '"' :: cs = part ++ rest ∧ Value part (k.elim .illText .text) := by
  obtain ⟨part, rfl, hpart⟩ := literal_of_readText h
  refine ⟨'"' :: (part ++ ['"']), by simp, ?_⟩
  cases k with
  | none => exact .illText hpart
  | some s => exact .text hpart

theorem value_of_items (hitems : ReadsItems n) {cs rest : List Char} {ds : List Document}
    {closed : Bool} (h : readItems n (skipBlanks cs) = (ds, closed, some rest))
    (hwhole : (Document.seq ds closed).isWhole = true) :
    ∃ part, '[' :: cs = part ++ rest ∧ Value part (.seq ds closed) := by
  rw [Document.isWhole, Bool.and_eq_true] at hwhole
  obtain ⟨hall, rfl⟩ := hwhole
  obtain ⟨w, hw, hcs⟩ := exists_blanks cs
  obtain ⟨parts, hparts, hds⟩ := hitems h hall
  exact ⟨'[' :: (w ++ parts ++ [']']), by rw [hcs, hparts]; simp, .list hw hds⟩

theorem value_of_entries (hentries : ReadsEntries n) {cs rest : List Char}
    {es : List (Option String × Document)} {closed : Bool}
    (h : readEntries n (skipBlanks cs) = (es, closed, some rest))
    (hwhole : (Document.map es closed).isWhole = true) :
    ∃ part, '\x7b' :: cs = part ++ rest ∧ Value part (.map es closed) := by
  rw [Document.isWhole, Bool.and_eq_true] at hwhole
  obtain ⟨hall, rfl⟩ := hwhole
  obtain ⟨w, hw, hcs⟩ := exists_blanks cs
  obtain ⟨parts, hparts, hes⟩ := hentries h hall
  exact ⟨'\x7b' :: (w ++ parts ++ ['\x7d']), by rw [hcs, hparts]; simp, .record hw hes⟩

/-- The first character tells which kind of value is read. -/
theorem readsValues_succ (hitems : ReadsItems n) (hentries : ReadsEntries n) :
    ReadsValues (n + 1) := by
  intro cs d rest h hwhole
  cases cs with
  | nil => cases h
  | cons c cs =>
    rw [readValue] at h
    -- A text, which may hold escapes that name no character.
    split at h
    · subst_vars
      split at h
      · rename_i hread
        cases h
        exact value_of_text hread
      · rename_i hread
        cases h
        exact value_of_text hread
      · cases h
    -- A list, with items or without.
    split at h
    · subst_vars
      split at h
      · rename_i hend
        cases h
        obtain ⟨w, hw, hcs⟩ := exists_blanks cs
        exact ⟨'[' :: (w ++ [']']), by rw [hcs, hend]; simp, .emptyList hw⟩
      · rcases hread : readItems n (skipBlanks cs) with ⟨ds, closed, rest'⟩
        simp only [hread] at h
        cases h
        exact value_of_items hitems hread hwhole
    -- A record, with members or without.
    split at h
    · subst_vars
      split at h
      · rename_i hend
        cases h
        obtain ⟨w, hw, hcs⟩ := exists_blanks cs
        exact ⟨'\x7b' :: (w ++ ['\x7d']), by rw [hcs, hend]; simp, .emptyRecord hw⟩
      · rcases hread : readEntries n (skipBlanks cs) with ⟨es, closed, rest'⟩
        simp only [hread] at h
        cases h
        exact value_of_entries hentries hread hwhole
    -- One of the three words.
    split at h
    · subst_vars
      obtain ⟨rfl, rfl⟩ := eq_of_readWord h
      exact ⟨_, rfl, .null⟩
    split at h
    · subst_vars
      obtain ⟨rfl, rfl⟩ := eq_of_readWord h
      exact ⟨_, rfl, .yes⟩
    split at h
    · subst_vars
      obtain ⟨rfl, rfl⟩ := eq_of_readWord h
      exact ⟨_, rfl, .no⟩
    -- Everything else is a number or nothing.
    split at h
    · subst_vars
      obtain ⟨part, w, rfl, hpart, rfl⟩ := value_of_readNumber h
      exact ⟨_, rfl, .negative hpart⟩
    · obtain ⟨part, w, hcut, hpart, rfl⟩ := value_of_readNumber h
      exact ⟨part, hcut, .number hpart⟩

end Step

theorem reads_all (fuel : Nat) : ReadsValues fuel ∧ ReadsItems fuel ∧ ReadsEntries fuel := by
  induction fuel with
  | zero =>
    refine ⟨?_, ?_, ?_⟩
    · intro cs d rest h
      cases cs <;> cases h
    · intro cs ds rest h
      cases h
    · intro cs es rest h
      cases h
  | succ n ih =>
    obtain ⟨hvalues, hitems, hentries⟩ := ih
    exact ⟨readsValues_succ hitems hentries, readsItems_succ hvalues hitems,
      readsEntries_succ hvalues hentries⟩

/-! ## Whole texts -/

theorem holds_of_draft {s : String} {d : Document} (h : draft s = ⟨d, true⟩)
    (hwhole : d.isWhole = true) : Holds s d := by
  obtain ⟨w, hw, hs⟩ := exists_blanks s.toList
  rcases hread : readValue (2 * s.toList.length + 2) (skipBlanks s.toList) with ⟨d', more⟩
  simp only [draft, hread, Draft.mk.injEq] at h
  obtain ⟨rfl, halone⟩ := h
  cases more with
  | none => cases halone
  | some rest =>
    obtain ⟨w', hw', hrest⟩ := exists_blanks rest
    obtain ⟨part, hpart, hvalue⟩ := (reads_all _).1 hread hwhole
    -- Nothing but blanks follows the value.
    have hend : skipBlanks rest = [] := List.isEmpty_iff.1 halone
    rw [hend, List.append_nil] at hrest
    have hchars : s = String.ofList (w ++ (part ++ w')) := by
      rw [← hrest, ← hpart, ← hs, String.ofList_toList]
    rw [hchars]
    exact .intro hw hvalue hw'

/-- A text holds a document if it is read as that document to its end, with nothing after it,
    and only then. -/
theorem holds_iff {s : String} {d : Document} :
    Holds s d ↔ draft s = ⟨d, true⟩ ∧ d.isWhole = true := by
  constructor
  · intro h
    refine ⟨h.draft, ?_⟩
    cases h with
    | intro _ hvalue _ => exact hvalue.isWhole
  · rintro ⟨h, hwhole⟩
    exact holds_of_draft h hwhole

end Grammar
end Json
end PluginHost
