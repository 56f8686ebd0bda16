/-
  PluginHost.Proofs.Json.Integers

  Integers of 64 bits, written in decimal digits and read again.  What carries it over is
  the list of digits that the reader takes: the digits of the text, without a zero in
  front of others, which add up to the number without leaving 64 bits.
-/
import PluginHost.Proofs.Json.Written

namespace PluginHost
namespace Json

/-- Whether an integer fits in 64 bits, with a sign or without one. -/
def IsWord (n : Int) : Prop :=
  -((UInt64.size / 2 : Nat) : Int) ≤ n ∧ n < (UInt64.size : Nat)

instance (n : Int) : Decidable (IsWord n) :=
  inferInstanceAs (Decidable (_ ∧ _))

namespace Number

/-! ## Digits -/

theorem digit?_of_isDigit {c : Char} (h : c.isDigit = true) : digit? c = some (c.toNat - 48) := by
  have hbounds : '0' ≤ c ∧ c ≤ '9' := by simpa [Char.isDigit, Char.le_def] using h
  rw [digit?, if_pos hbounds]

/-- The values of digits. -/
def values (cs : List Char) : List Nat :=
  cs.map fun c => c.toNat - 48

/-- Digits are taken up to a character that is none. -/
theorem takeDigits_append {cs rest : List Char} (hdigits : ∀ c ∈ cs, c.isDigit = true)
    (hrest : ∀ c ∈ rest.head?, digit? c = none) (taken : List Nat) :
    takeDigits taken (cs ++ rest) = (taken.reverse ++ values cs, rest) := by
  induction cs generalizing taken with
  | nil =>
    rw [List.nil_append, values, List.map_nil, List.append_nil]
    cases rest with
    | nil => rfl
    | cons c rest =>
      have hc := hrest c (by simp)
      simp only [takeDigits, hc]
  | cons c cs ih =>
    have hc := digit?_of_isDigit (hdigits c (by simp))
    have hread := ih (fun c hc => hdigits c (by simp [hc])) ((c.toNat - 48) :: taken)
    rw [List.reverse_cons, List.append_assoc] at hread
    simp only [List.cons_append, takeDigits, hc, hread]
    rfl

/-- A significand never falls when digits are appended to it. -/
theorem le_foldl_digits (ds : List Nat) (n : Nat) : n ≤ ds.foldl (fun n d => n * 10 + d) n := by
  induction ds generalizing n with
  | nil => exact Nat.le_refl n
  | cons d ds ih => exact Nat.le_trans (by omega) (ih (n * 10 + d))

/-- Digits are added up as long as all of them stay within the limit. -/
theorem accumulate_eq {ds : List Nat} {significand : Nat}
    (h : ds.foldl (fun n d => n * 10 + d) significand ≤ limit) :
    accumulate significand ds = (ds.foldl (fun n d => n * 10 + d) significand, []) := by
  induction ds generalizing significand with
  | nil => rfl
  | cons d ds ih =>
    rw [List.foldl_cons] at h ⊢
    rw [accumulate, if_pos (Nat.le_trans (le_foldl_digits ds _) h), ih h]

/-- The decimal digits of a number. -/
abbrev decimal (n : Nat) : List Char :=
  Nat.toDigits 10 n

theorem isDigit_of_mem_decimal {n : Nat} {c : Char} (h : c ∈ decimal n) : c.isDigit = true :=
  Nat.isDigit_of_mem_toDigits (b := 10) (by decide) (by decide) h

theorem ofDigits_decimal (n : Nat) : ofDigits (values (decimal n)) = n := by
  have hvalue := Nat.ofDigitChars_ten_toDigits (n := n)
  rw [Nat.ofDigitChars] at hvalue
  rw [ofDigits, values, List.foldl_map]
  simpa [Nat.mul_comm] using hvalue

/-- No zero stands in front of other digits. -/
theorem head_decimal (n : Nat) (h : 10 ≤ n) : (values (decimal n)).head? ≠ some 0 := by
  -- By induction on what is left of the number without its last digit.
  induction n using Nat.strong_induction_on with
  | _ n ih =>
    have hfront : decimal n = decimal (n / 10) ++ [(n % 10).digitChar] := by
      rw [decimal, Nat.toDigits_eq_if (by decide), if_neg (by omega)]
    obtain hsmall | hlarge := Nat.lt_or_ge (n / 10) 10
    · have hdigit : decimal (n / 10) = [(n / 10).digitChar] := Nat.toDigits_of_lt_base hsmall
      have hvalue := Nat.toNat_digitChar_of_lt_ten hsmall
      rw [hfront, hdigit]
      simp only [values, List.cons_append, List.map_cons, List.head?_cons, ne_eq, Option.some.injEq]
      omega
    · have hne : values (decimal (n / 10)) ≠ [] := by simp [values, decimal, Nat.toDigits_ne_nil]
      have hrest := ih (n / 10) (by omega) hlarge
      obtain ⟨d, ds, hds⟩ := List.exists_cons_of_ne_nil hne
      rw [hds] at hrest
      rw [hfront, values, List.map_append, ← values, hds]
      exact hrest

/-! ## Reading -/

/-- What follows a number that has ended is no fraction. -/
theorem readFraction_of_ends {rest : List Char} (h : Ends rest) :
    readFraction rest = some (none, rest) := by
  cases rest with
  | nil => rfl
  | cons c rest =>
    have hc := (h c (by simp)).2.1
    unfold readFraction
    split
    · rename_i heq
      exact absurd (List.cons.inj heq).1 hc
    · rfl

/-- What follows a number that has ended is no exponent. -/
theorem readExponent_of_ends {rest : List Char} (h : Ends rest) :
    readExponent rest = some (none, rest) := by
  cases rest with
  | nil => rfl
  | cons c rest =>
    have hc := (h c (by simp)).2.2
    exact if_neg (not_or.2 hc)

theorem readWritten_decimal {n : Nat} {rest : List Char} (hrest : Ends rest) :
    readWritten (decimal n ++ rest) = some (⟨values (decimal n), none, none⟩, rest) := by
  have hdigits : ∀ c ∈ decimal n, c.isDigit = true := fun c hc => isDigit_of_mem_decimal hc
  have htake := takeDigits_append hdigits (fun c hc => (hrest c hc).1) []
  rw [List.reverse_nil, List.nil_append] at htake
  -- A zero in front is the only digit, so that the reader takes the digits as they are.
  have hgood : ¬ (values (decimal n) = [] ∨
      (values (decimal n)).head? = some 0 ∧ 1 < (values (decimal n)).length) := by
    rintro (hnil | ⟨hzero, hlong⟩)
    · exact Nat.toDigits_ne_nil (List.map_eq_nil_iff.1 hnil)
    · obtain hsmall | hlarge := Nat.lt_or_ge n 10
      · have hdigit : decimal n = [n.digitChar] := Nat.toDigits_of_lt_base hsmall
        simp [values, hdigit] at hlong
      · exact head_decimal n hlarge hzero
  simp only [readWritten, htake, if_neg hgood, readFraction_of_ends hrest,
    readExponent_of_ends hrest, Option.bind_eq_bind, Option.bind_some, Option.pure_def]

theorem accumulate_decimal {n : Nat} (h : n < UInt64.size) :
    accumulate 0 (values (decimal n)) = (n, []) := by
  have hdigits := ofDigits_decimal n
  rw [ofDigits] at hdigits
  have hlimit : n ≤ limit := Nat.le_sub_one_of_lt h
  rw [accumulate_eq (by rwa [hdigits]), hdigits]

theorem toDocument_natural {n : Nat} (h : n < UInt64.size) :
    Written.toDocument false ⟨values (decimal n), none, none⟩ = .int n := by
  simp only [Written.toDocument, accumulate_decimal h]
  simp

theorem toDocument_negative {n : Nat} (hpos : 0 < n) (h : n ≤ UInt64.size / 2) :
    Written.toDocument true ⟨values (decimal n), none, none⟩ = .int (-(n : Int)) := by
  have hsize : n < UInt64.size := Nat.lt_of_le_of_lt h (by decide)
  have hin : ¬ (n = 0 ∨ UInt64.size / 2 < n) := by omega
  simp only [Written.toDocument, accumulate_decimal hsize, if_neg hin]
  simp

end Number

/-! ## Texts of integers -/

open Reader Number

theorem ne_of_isDigit {c d : Char} (h : c.isDigit = true) (hd : d.isDigit = false) : c ≠ d := by
  rintro rfl
  simp [h] at hd

/-- A digit that begins a value begins a number. -/
theorem readValue_digit {c : Char} (h : c.isDigit = true) (fuel : Nat) (cs : List Char) :
    readValue (fuel + 1) (c :: cs) = readNumber false (c :: cs) := by
  rw [readValue, if_neg (ne_of_isDigit h (by decide)), if_neg (ne_of_isDigit h (by decide)),
    if_neg (ne_of_isDigit h (by decide)), if_neg (ne_of_isDigit h (by decide)),
    if_neg (ne_of_isDigit h (by decide)), if_neg (ne_of_isDigit h (by decide)),
    if_neg (ne_of_isDigit h (by decide))]

theorem isBlank_of_isDigit {c : Char} (h : c.isDigit = true) : isBlank c = false := by
  have hspace : c ≠ ' ' := ne_of_isDigit h (by decide)
  have hline : c ≠ '\n' := ne_of_isDigit h (by decide)
  have htab : c ≠ '\t' := ne_of_isDigit h (by decide)
  have hreturn : c ≠ '\r' := ne_of_isDigit h (by decide)
  simp [isBlank, hspace, hline, htab, hreturn]

theorem spells_natural {n : Nat} (h : n < UInt64.size) : Spells (decimal n) (.int n) := by
  obtain ⟨c, cs, hcs⟩ : ∃ c cs, decimal n = c :: cs :=
    List.exists_cons_of_ne_nil Nat.toDigits_ne_nil
  have hc : c.isDigit = true := isDigit_of_mem_decimal (hcs ▸ List.mem_cons_self)
  rw [hcs]
  refine .of_cons (isBlank_of_isDigit hc) fun fuel rest _ hrest => ?_
  have hwritten := readWritten_decimal (n := n) hrest
  rw [hcs, List.cons_append, ← hcs] at hwritten
  simp only [readValue_digit hc, readNumber, hwritten, toDocument_natural h]

theorem spells_negative {n : Nat} (hpos : 0 < n) (h : n ≤ UInt64.size / 2) :
    Spells ('-' :: decimal n) (.int (-(n : Int))) := by
  refine .of_cons rfl fun fuel rest _ hrest => ?_
  have hread : readValue (fuel + 1) ('-' :: (decimal n ++ rest))
      = readNumber true (decimal n ++ rest) := by
    simp [readValue]
  simp only [hread, readNumber, readWritten_decimal hrest, toDocument_negative hpos h]

/-- The text of an integer spells it. -/
theorem spells_toString {n : Int} (h : IsWord n) : Spells (toString n).toList (.int n) := by
  obtain ⟨hlow, hhigh⟩ := h
  cases n with
  | ofNat n =>
    have hchars : (toString (Int.ofNat n)).toList = decimal n := Nat.toList_repr
    rw [hchars]
    exact spells_natural (by simpa using hhigh)
  | negSucc n =>
    have hchars : (toString (Int.negSucc n)).toList = '-' :: decimal (n + 1) := by
      change ("-" ++ (n + 1).repr).toList = _
      rw [String.toList_append, Nat.toList_repr]
      rfl
    rw [hchars]
    exact spells_negative (Nat.succ_pos n) (by omega)

end Json
end PluginHost
