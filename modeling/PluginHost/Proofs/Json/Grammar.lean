/-
  PluginHost.Proofs.Json.Grammar

  The grammar of JSON, told without the reader, and the reader that follows it.  `Value`
  relates the characters of a value to the document that they stand for: blanks may stand
  wherever the grammar lets them, lists and records nest as deep as they like, a name may
  stand twice in a record, and a text may hold escapes that name no character.  Every such
  value is read to its end (`Value.spells`) and can be passed over (`Value.isWhole`), and so
  a text that holds one is read as its document (`readAs_of_holds`).
-/
import PluginHost.Proofs.Json.Integers
import PluginHost.Proofs.Schema.Trees

namespace PluginHost
namespace Json
namespace Grammar

open Reader Number

/-! ## Texts -/

/-- What stands between quotes: characters, and code units by their number. -/
inductive Piece where
  | char (c : Char)
  | unit (u : Nat)

/-- A text with a piece more.  Two code units in a row may make one character. -/
def Piece.add (t : TextDraft) : Piece → TextDraft
  | .char c => t.push c
  | .unit u => t.pushUnit u

/-- The letters that stand for a character after a backslash. -/
def escapes : List (Char × Char) :=
  [('"', '"'), ('\\', '\\'), ('/', '/'), ('b', '\x08'), ('f', '\x0c'), ('n', '\n'), ('r', '\r'),
    ('t', '\t')]

/-- Whether a character stands for itself. -/
def isPlain (c : Char) : Bool :=
  c ≠ '"' && c ≠ '\\' && 0x20 ≤ c.toNat

/-- How a piece is spelled. -/
inductive Spelling : List Char → Piece → Prop
  | plain {c : Char} (h : isPlain c = true) : Spelling [c] (.char c)
  | short {e c : Char} (h : (e, c) ∈ escapes) : Spelling ['\\', e] (.char c)
  | unit {a b c d : Char} {u : Nat} (h : codeUnit? a b c d = some u) :
      Spelling ['\\', 'u', a, b, c, d] (.unit u)

/-- How pieces are spelled, one after another. -/
inductive Pieces : List Char → List Piece → Prop
  | nil : Pieces [] []
  | cons {cs rest : List Char} {p : Piece} {ps : List Piece} (h : Spelling cs p)
      (hrest : Pieces rest ps) : Pieces (cs ++ rest) (p :: ps)

/-- What stands between quotes and the text that it is, if there is such a text. -/
inductive Literal : List Char → Option String → Prop
  | intro {cs : List Char} {ps : List Piece} (h : Pieces cs ps) :
      Literal cs (ps.foldl Piece.add {}).finish

theorem isPlain_iff {c : Char} :
    isPlain c = true ↔ c ≠ '"' ∧ c ≠ '\\' ∧ 0x20 ≤ c.toNat := by
  simp [isPlain, and_assoc]

theorem literal_plain (cs : List Char) (h : cs.all isPlain = true) :
    Literal cs (some (String.ofList cs)) := by
  have hpieces : Pieces cs (cs.map .char) := by
    induction cs with
    | nil => exact .nil
    | cons c cs ih =>
      rw [List.all_cons, Bool.and_eq_true] at h
      exact .cons (.plain h.1) (ih h.2)
  have htext : ((cs.map .char).foldl Piece.add {}).finish = some (String.ofList cs) := by
    rw [List.foldl_map]
    change (cs.foldl TextDraft.push {}).finish = _
    simp [foldl_push, TextDraft.finish]
  exact htext ▸ .intro hpieces

theorem readText_spelling {cs : List Char} {p : Piece} (h : Spelling cs p) (t : TextDraft)
    (rest : List Char) : readText t (cs ++ rest) = readText (p.add t) rest := by
  cases h with
  | plain h =>
    obtain ⟨hquote, hback, hcontrol⟩ := isPlain_iff.1 h
    rw [List.cons_append, List.nil_append, readText]
    · rw [if_neg hquote, if_neg (not_or.2 ⟨hback, Nat.not_lt.2 hcontrol⟩)]
      rfl
    all_goals
      intros
      simp_all
  | short h =>
    -- No letter of a short escape is the one that code units begin with.
    simp only [escapes, List.mem_cons, Prod.mk.injEq, List.not_mem_nil, or_false] at h
    obtain ⟨rfl, rfl⟩ | ⟨rfl, rfl⟩ | ⟨rfl, rfl⟩ | ⟨rfl, rfl⟩ | ⟨rfl, rfl⟩ | ⟨rfl, rfl⟩ |
      ⟨rfl, rfl⟩ | ⟨rfl, rfl⟩ := h
    all_goals simp [readText, shortEscape?, Piece.add]
  | unit h =>
    simp only [List.cons_append, List.nil_append, readText, h]
    rfl

theorem readText_pieces {cs : List Char} {ps : List Piece} (h : Pieces cs ps) (t : TextDraft)
    (rest : List Char) :
    readText t (cs ++ '"' :: rest) = some ((ps.foldl Piece.add t).finish, rest) := by
  induction h generalizing t with
  | nil =>
    rw [List.nil_append, readText, if_pos rfl]
    · rfl
    all_goals
      intros
      simp_all
  | cons h _ ih => rw [List.append_assoc, readText_spelling h, ih, List.foldl_cons]

theorem Literal.names {cs : List Char} {k : Option String} (h : Literal cs k) : Names cs k := by
  cases h with
  | intro h => exact readText_pieces h {}

/-! ## Numbers -/

/-- Digits, at least one. -/
def Digits (cs : List Char) : Prop :=
  cs ≠ [] ∧ ∀ c ∈ cs, c.isDigit = true

/-- The digits before the point: no zero stands in front of others. -/
inductive Whole : List Char → Prop
  | zero : Whole ['0']
  | digits {c : Char} {cs : List Char} (hne : c ≠ '0') (h : Digits (c :: cs)) : Whole (c :: cs)

/-- A point and the digits after it. -/
inductive Fraction : List Char → Option (List Nat) → Prop
  | absent : Fraction [] none
  | present {cs : List Char} (h : Digits cs) : Fraction ('.' :: cs) (some (values cs))

/-- The letter and the digits of an exponent, with a sign or without one. -/
inductive Exponent : List Char → Option Int → Prop
  | absent : Exponent [] none
  | plain {e : Char} {cs : List Char} (he : e = 'e' ∨ e = 'E') (h : Digits cs) :
      Exponent (e :: cs) (some (ofDigits (values cs)))
  | plus {e : Char} {cs : List Char} (he : e = 'e' ∨ e = 'E') (h : Digits cs) :
      Exponent (e :: '+' :: cs) (some (ofDigits (values cs)))
  | minus {e : Char} {cs : List Char} (he : e = 'e' ∨ e = 'E') (h : Digits cs) :
      Exponent (e :: '-' :: cs) (some (-(ofDigits (values cs) : Int)))

/-- A number without its sign. -/
inductive Magnitude : List Char → Written → Prop
  | intro {ws fs es : List Char} {f : Option (List Nat)} {e : Option Int} (hwhole : Whole ws)
      (hfraction : Fraction fs f) (hexponent : Exponent es e) :
      Magnitude (ws ++ (fs ++ es)) ⟨values ws, f, e⟩

/-- Where no digit comes next, so that the digits before have all been taken. -/
def NoDigit (rest : List Char) : Prop :=
  ∀ c ∈ rest.head?, digit? c = none

theorem noDigit_of_ends {rest : List Char} (h : Ends rest) : NoDigit rest :=
  fun c hc => (h c hc).1

theorem Digits.take {cs : List Char} (h : Digits cs) {rest : List Char} (hrest : NoDigit rest) :
    ∃ d ds, values cs = d :: ds ∧ takeDigits [] (cs ++ rest) = (d :: ds, rest) := by
  obtain ⟨hne, hdigits⟩ := h
  obtain ⟨c, cs, rfl⟩ := List.exists_cons_of_ne_nil hne
  exact ⟨_, _, rfl, takeDigits_append hdigits hrest []⟩

theorem Whole.digits_of {ws : List Char} (h : Whole ws) : Digits ws := by
  cases h with
  | zero => exact ⟨List.cons_ne_nil _ _, List.forall_mem_singleton.2 rfl⟩
  | digits _ h => exact h

/-- Digits that begin with another digit than zero have another value than zero in front. -/
theorem value_ne_zero {c : Char} (h : c.isDigit = true) (hne : c ≠ '0') : c.toNat - 48 ≠ 0 := by
  intro hzero
  have hrange : 48 ≤ c.toNat ∧ c.toNat ≤ 57 := by
    simpa [Char.isDigit, UInt32.le_iff_toNat_le] using h
  have hval : c.toNat = 48 := by omega
  exact hne (Char.toNat_inj.1 hval)

theorem Whole.not_refused {ws : List Char} (h : Whole ws) :
    ¬ (values ws = [] ∨ (values ws).head? = some 0 ∧ 1 < (values ws).length) := by
  cases h with
  | zero => decide
  | digits hne h =>
    have hfirst := value_ne_zero (h.2 _ List.mem_cons_self) hne
    simp [values, hfirst]

theorem readPower_digits {cs rest : List Char} (h : Digits cs) (hrest : NoDigit rest)
    (negative : Bool) : readPower negative (cs ++ rest)
      = some (some (if negative then -(ofDigits (values cs) : Int) else ofDigits (values cs)),
          rest) := by
  obtain ⟨d, ds, hvalues, htake⟩ := h.take hrest
  rw [readPower, htake, hvalues]

/-- An exponent is read if the number ends after it. -/
theorem Exponent.reads {es : List Char} {e : Option Int} (h : Exponent es e) {rest : List Char}
    (hrest : Ends rest) : readExponent (es ++ rest) = some (e, rest) := by
  cases h with
  | absent => exact readExponent_of_ends hrest
  | @plain c cs he h =>
    -- The first digit is no sign.
    obtain ⟨hne, hdigits⟩ := h
    obtain ⟨a, as, rfl⟩ := List.exists_cons_of_ne_nil hne
    have ha := hdigits a List.mem_cons_self
    have hread := readPower_digits ⟨hne, hdigits⟩ (noDigit_of_ends hrest) false
    rw [List.cons_append] at hread
    rw [List.cons_append, List.cons_append, readExponent, if_pos he]
    · exact hread
    · intro more heq
      exact ne_of_isDigit ha (by decide) (List.cons.inj heq).1
    · intro more heq
      exact ne_of_isDigit ha (by decide) (List.cons.inj heq).1
  | plus he h =>
    rw [List.cons_append, List.cons_append, readExponent, if_pos he]
    exact readPower_digits h (noDigit_of_ends hrest) false
  | minus he h =>
    rw [List.cons_append, List.cons_append, readExponent, if_pos he]
    exact readPower_digits h (noDigit_of_ends hrest) true

/-- What follows the fraction of a number is neither a digit nor a point. -/
theorem Exponent.follows {es : List Char} {e : Option Int} (h : Exponent es e) {rest : List Char}
    (hrest : Ends rest) : ∀ c ∈ (es ++ rest).head?, digit? c = none ∧ c ≠ '.' := by
  cases h with
  | absent => exact fun c hc => ⟨(hrest c hc).1, (hrest c hc).2.1⟩
  | plain he _ | plus he _ | minus he _ =>
    rintro c ⟨⟩
    obtain rfl | rfl := he <;> exact ⟨rfl, by decide⟩

theorem Fraction.reads {fs : List Char} {f : Option (List Nat)} (h : Fraction fs f)
    {rest : List Char} (hrest : ∀ c ∈ rest.head?, digit? c = none ∧ c ≠ '.') :
    readFraction (fs ++ rest) = some (f, rest) := by
  cases h with
  | absent =>
    rw [List.nil_append]
    unfold readFraction
    split
    · exact absurd rfl (hrest _ rfl).2
    · rfl
  | present h =>
    obtain ⟨d, ds, hvalues, htake⟩ := h.take fun c hc => (hrest c hc).1
    rw [List.cons_append, readFraction, htake, hvalues]

theorem Fraction.follows {fs : List Char} {f : Option (List Nat)} (h : Fraction fs f)
    {rest : List Char} (hrest : NoDigit rest) : NoDigit (fs ++ rest) := by
  cases h with
  | absent => exact hrest
  | present _ =>
    rintro c ⟨⟩
    rfl

/-- A number is read up to its end. -/
theorem Magnitude.reads {cs : List Char} {w : Written} (h : Magnitude cs w) {rest : List Char}
    (hrest : Ends rest) : readWritten (cs ++ rest) = some (w, rest) := by
  cases h with
  | @intro ws fs es f e hwhole hfraction hexponent =>
    have hfollows := hexponent.follows hrest
    have htake := takeDigits_append hwhole.digits_of.2
      (hfraction.follows fun c hc => (hfollows c hc).1) []
    rw [List.reverse_nil, List.nil_append] at htake
    simp only [List.append_assoc, readWritten, htake, if_neg hwhole.not_refused,
      hfraction.reads hfollows, hexponent.reads hrest, Option.bind_eq_bind, Option.bind_some,
      Option.pure_def]

/-- A number begins with a digit. -/
theorem Magnitude.starts {cs : List Char} {w : Written} (h : Magnitude cs w) :
    ∃ c rest, cs = c :: rest ∧ c.isDigit = true := by
  cases h with
  | intro hwhole _ _ =>
    obtain ⟨hne, hdigits⟩ := hwhole.digits_of
    obtain ⟨c, ws, rfl⟩ := List.exists_cons_of_ne_nil hne
    exact ⟨c, _, rfl, hdigits c List.mem_cons_self⟩

theorem Magnitude.spells {cs : List Char} {w : Written} (h : Magnitude cs w) :
    Spells cs (w.toDocument false) := by
  obtain ⟨c, more, rfl, hc⟩ := h.starts
  refine .of_cons (isBlank_of_isDigit hc) fun fuel rest _ hrest => ?_
  have hread := h.reads hrest
  rw [List.cons_append] at hread
  simp only [readValue_digit hc, readNumber, hread]

theorem Magnitude.spells_negative {cs : List Char} {w : Written} (h : Magnitude cs w) :
    Spells ('-' :: cs) (w.toDocument true) := by
  refine .of_cons rfl fun fuel rest _ hrest => ?_
  have hread := h.reads hrest
  simp [readValue, readNumber, hread]

theorem isWhole_toDocument (w : Written) (negative : Bool) :
    (w.toDocument negative).isWhole = true := by
  simp only [Written.toDocument]
  repeat' split
  all_goals rfl

/-! ## Values -/

/-- A value and the document that it stands for. -/
inductive Value : List Char → Document → Prop
  | null : Value ['n', 'u', 'l', 'l'] .null
  | yes : Value ['t', 'r', 'u', 'e'] (.bool true)
  | no : Value ['f', 'a', 'l', 's', 'e'] (.bool false)
  | number {cs : List Char} {w : Written} (h : Magnitude cs w) : Value cs (w.toDocument false)
  | negative {cs : List Char} {w : Written} (h : Magnitude cs w) :
      Value ('-' :: cs) (w.toDocument true)
  | text {cs : List Char} {s : String} (h : Literal cs (some s)) :
      Value ('"' :: (cs ++ ['"'])) (.text s)
  | illText {cs : List Char} (h : Literal cs none) : Value ('"' :: (cs ++ ['"'])) .illText
  | emptyList {w : List Char} (hw : Blanks w) : Value ('[' :: (w ++ [']'])) (.seq [] true)
  | list {w cs : List Char} {ds : List Document} (hw : Blanks w) (h : Separated Value cs ds) :
      Value ('[' :: (w ++ cs ++ [']'])) (.seq ds true)
  | emptyRecord {w : List Char} (hw : Blanks w) :
      Value ('\x7b' :: (w ++ ['\x7d'])) (.map [] true)
  | record {w cs : List Char} {es : List (Option String × Document)} (hw : Blanks w)
      (h : Separated (Member Literal Value) cs es) :
      Value ('\x7b' :: (w ++ cs ++ ['\x7d'])) (.map es true)

/-- A member whose name stands for itself. -/
theorem member_plain (name : List Char) (hname : name.all isPlain = true) {cs : List Char}
    {d : Document} (h : Value cs d) :
    Member Literal Value ('"' :: (name ++ '"' :: ([] ++ ':' :: ([] ++ cs))))
      (some (String.ofList name), d) :=
  .intro (literal_plain name hname) blanks_nil blanks_nil h

theorem spells_word {c : Char} {word : List Char} {d : Document} (hblank : isBlank c = false)
    (h : ∀ fuel cs, readValue (fuel + 1) (c :: cs) = readWord word d cs) :
    Spells (c :: word) d := by
  refine .of_cons hblank fun fuel rest _ _ => ?_
  rw [h, readWord, if_pos (List.isPrefixOf_iff_prefix.2 (List.prefix_append word rest)),
    List.drop_left]

theorem spells_literal {cs : List Char} {k : Option String} (h : Literal cs k) :
    Spells ('"' :: (cs ++ ['"'])) (k.elim .illText .text) := by
  refine .of_cons rfl fun fuel rest _ _ => ?_
  have hread := h.names rest
  cases k <;>
    simp only [List.append_assoc, List.cons_append, List.nil_append, readValue, if_true, hread,
      Option.elim]

/-- A value is read to its end.  The induction is on its length: the items of a list and the
    values of a record are shorter than the whole. -/
theorem Value.spells {cs : List Char} {d : Document} (h : Value cs d) : Spells cs d := by
  induction hn : cs.length using Nat.strong_induction_on generalizing cs d with
  | _ n ih =>
    subst hn
    cases h with
    | null => exact spells_word rfl fun _ _ => rfl
    | yes => exact spells_word rfl fun _ _ => rfl
    | no => exact spells_word rfl fun _ _ => rfl
    | number h => exact h.spells
    | negative h => exact h.spells_negative
    | text h => exact spells_literal h
    | illText h => exact spells_literal h
    | emptyList hw => exact spells_empty_list hw
    | emptyRecord hw => exact spells_empty_record hw
    | list hw h =>
      simp only [List.length_cons, List.length_append] at ih
      exact spells_items hw (h.imp fun hshort hpart => ih _ (by omega) hpart rfl)
    | record hw h =>
      simp only [List.length_cons, List.length_append] at ih
      refine spells_members hw (h.imp fun hshort hmember => ?_)
      exact hmember.imp Literal.names fun hpart hvalue => ih _ (by omega) hvalue rfl

/-- A value can be passed over, whatever it holds. -/
theorem Value.isWhole {cs : List Char} {d : Document} (h : Value cs d) : d.isWhole = true := by
  induction hn : cs.length using Nat.strong_induction_on generalizing cs d with
  | _ n ih =>
    subst hn
    cases h with
    | number _ => exact isWhole_toDocument _ _
    | negative _ => exact isWhole_toDocument _ _
    | list hw h =>
      simp only [List.length_cons, List.length_append] at ih
      rw [Document.isWhole, Bool.and_true, Document.allWhole_iff]
      exact h.forall_mem fun hshort hpart => ih _ (by omega) hpart rfl
    | record hw h =>
      simp only [List.length_cons, List.length_append] at ih
      rw [Document.isWhole, Bool.and_true, Document.allEntriesWhole_iff]
      refine h.forall_mem fun hshort hmember => ?_
      cases hmember with
      | intro _ _ _ hvalue =>
        simp only [List.length_cons, List.length_append] at hshort
        exact ih _ (by omega) hvalue rfl
    | _ => rfl

/-! ## Whole texts -/

/-- A text of one value, with blanks around it. -/
inductive Holds : String → Document → Prop
  | intro {w cs w' : List Char} {d : Document} (hw : Blanks w) (h : Value cs d)
      (hw' : Blanks w') : Holds (String.ofList (w ++ (cs ++ w'))) d

theorem Holds.draft {s : String} {d : Document} (h : Holds s d) : draft s = ⟨d, true⟩ := by
  cases h with
  | intro hw h hw' => exact draft_of_blanks String.toList_ofList hw h.spells hw'

/-- A text is read as what it holds. -/
theorem readAs_of_holds {α : Type} {s : String} {d : Document} (h : Holds s d)
    (read : Document → Read α) : readAs read s = read d :=
  readAs_of_draft h.draft read

end Grammar
end Json
end PluginHost
