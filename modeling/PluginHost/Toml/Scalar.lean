/-
  PluginHost.Toml.Scalar

  Numbers, dates and truth values of TOML.  A date or a time stands in a
  document as a map with one entry, its text in canonical form.
-/
import PluginHost.Toml.Text

namespace PluginHost

namespace Toml

/-! ## Digits -/

/-- The value of a decimal digit. -/
def digit? (c : Char) : Option Nat :=
  if '0' ≤ c ∧ c ≤ '9' then some (c.toNat - 48) else none

/-- Digits of a base, an underscore allowed between any two, as the list of their
    values; the one read last comes first. -/
def digitsRest (value? : Char → Option Nat) (taken : List Nat) : Reader (List Nat)
  | [] => some (taken, [])
  | '_' :: c :: cs => do digitsRest value? ((← value? c) :: taken) cs
  | c :: cs =>
    if c = '_' then none
    else
      match value? c with
      | some d => digitsRest value? (d :: taken) cs
      | none => some (taken, c :: cs)

/-- At least one digit of a base, in the order of the text. -/
def readDigits (value? : Char → Option Nat) : Reader (List Nat)
  | [] => none
  | c :: cs => do
    let (ds, cs) ← digitsRest value? [(← value? c)] cs
    return (ds.reverse, cs)

/-- The number that digits of a base write. -/
def ofDigits (base : Nat) (ds : List Nat) : Nat :=
  ds.foldl (fun n d => n * base + d) 0

/-! ## Numbers -/

/-- An integer, if it is one of 64 bits. -/
def toInt? (negative : Bool) (n : Nat) : Option Document :=
  let i : Int := if negative then -(n : Int) else n
  if Int64.minValue.toInt ≤ i ∧ i ≤ Int64.maxValue.toInt then some (.int i) else none

/-- The whole part of a decimal number: a zero, or digits that begin with
    another one. -/
def readWhole : Reader (List Nat)
  | '0' :: cs => some ([0], cs)
  | cs => readDigits digit? cs

/-- An exponent with its sign. -/
def readExponent : Reader Int
  | '-' :: cs => do
    let (ds, cs) ← readDigits digit? cs
    return (-(ofDigits 10 ds : Int), cs)
  | '+' :: cs => do
    let (ds, cs) ← readDigits digit? cs
    return ((ofDigits 10 ds : Int), cs)
  | cs => do
    let (ds, cs) ← readDigits digit? cs
    return ((ofDigits 10 ds : Int), cs)

/-- The double of a decimal number.  One that is too large is refused, one that
    is too small is minus infinity. -/
def toDouble? (negative : Bool) (whole fraction : List Nat) (e : Int) : Option Document :=
  match Double.ofDecimal negative (ofDigits 10 (whole ++ fraction)) (e - fraction.length) with
  | .infinite false => none
  | x => some (.double x)

/-- A fraction and an exponent after the whole part, at least one of them. -/
def readTail (negative : Bool) (whole : List Nat) : Reader Document
  | '.' :: cs => do
    let (fraction, cs) ← readDigits digit? cs
    match cs with
    | 'e' :: cs | 'E' :: cs =>
      let (e, cs) ← readExponent cs
      return (← toDouble? negative whole fraction e, cs)
    | cs => return (← toDouble? negative whole fraction 0, cs)
  | cs => do
    let (e, cs) ← readExponent (cs.drop 1)
    return (← toDouble? negative whole [] e, cs)

/-- A decimal number without its sign. -/
def readDecimal (negative : Bool) (cs : List Char) : Option (Document × List Char) := do
  let (whole, cs) ← readWhole cs
  if cs.head?.any (fun c => c = '.' || c = 'e' || c = 'E') then readTail negative whole cs
  else return (← toInt? negative (ofDigits 10 whole), cs)

/-- A number, or the special ones, without their sign. -/
def readMagnitude (negative : Bool) : Reader Document
  | 'i' :: 'n' :: 'f' :: cs => some (.double (.infinite negative), cs)
  | 'n' :: 'a' :: 'n' :: cs => some (.double .nan, cs)
  | cs => readDecimal negative cs

/-- The value of a digit below a base of at most ten. -/
def digitBelow (base : Nat) (c : Char) : Option Nat :=
  (digit? c).filter (· < base)

/-- An integer in another base. -/
def readBased (base : Nat) (value? : Char → Option Nat) (cs : List Char) :
    Option (Document × List Char) := do
  let (ds, cs) ← readDigits value? cs
  return (← toInt? false (ofDigits base ds), cs)

/-- A number of any form. -/
def readNumber : Reader Document
  | '0' :: 'x' :: cs => readBased 16 hexValue? cs
  | '0' :: 'o' :: cs => readBased 8 (digitBelow 8) cs
  | '0' :: 'b' :: cs => readBased 2 (digitBelow 2) cs
  | '-' :: cs => readMagnitude true cs
  | '+' :: cs => readMagnitude false cs
  | cs => readMagnitude false cs

/-! ## Dates and times -/

/-- The number of two digits. -/
def twoDigits? (a b : Char) : Option Nat := do
  return (← digit? a) * 10 + (← digit? b)

/-- A number with at least two digits. -/
def two (n : Nat) : List Char :=
  let ds := Nat.toDigits 10 n
  List.replicate (2 - ds.length) '0' ++ ds

/-- The days of a month. -/
def daysIn (year month : Nat) : Nat :=
  if month = 2 then
    if year % 4 = 0 ∧ (year % 100 ≠ 0 ∨ year % 400 = 0) then 29 else 28
  else if month = 4 ∨ month = 6 ∨ month = 9 ∨ month = 11 then 30
  else 31

/-- A date, in the canonical form. -/
def readDate : Reader (List Char)
  | a :: b :: c :: d :: '-' :: e :: f :: '-' :: g :: h :: cs => do
    let year := (← twoDigits? a b) * 100 + (← twoDigits? c d)
    let month ← twoDigits? e f
    let day ← twoDigits? g h
    if 1 ≤ month ∧ month ≤ 12 ∧ 1 ≤ day ∧ day ≤ daysIn year month then
      return ([a, b, c, d, '-', e, f, '-', g, h], cs)
    else none
  | _ => none

/-- Whether a time of the day begins here. -/
def startsTime : List Char → Bool
  | a :: b :: ':' :: _ => ((twoDigits? a b).filter (· < 24)).isSome
  | _ => false

/-- The fraction of a second: nine digits count, zeros at the end do not. -/
def readSecondFraction : List Char → List Char × List Char
  | '.' :: cs =>
    let ds := cs.takeWhile Char.isDigit
    let shown := ((ds.take 9).reverse.dropWhile (· = '0')).reverse
    if ds = [] then ([], '.' :: cs)
    else (if shown = [] then [] else '.' :: shown, cs.drop ds.length)
  | cs => ([], cs)

/-- A time of the day, in the canonical form. -/
def readTime : Reader (List Char)
  | a :: b :: ':' :: c :: d :: ':' :: e :: f :: cs => do
    let hour ← twoDigits? a b
    let minute ← twoDigits? c d
    let second ← twoDigits? e f
    if hour < 24 ∧ minute < 60 ∧ second ≤ 60 then
      let (fraction, cs) := readSecondFraction cs
      return ([a, b, ':', c, d, ':', e, f] ++ fraction, cs)
    else none
  | _ => none

/-- The offset of a time, in the canonical form, if there is one. -/
def readOffset : Reader (List Char)
  | 'Z' :: cs | 'z' :: cs => some (['Z'], cs)
  | '+' :: a :: b :: ':' :: c :: d :: cs => do
    let hour ← twoDigits? a b
    let minute ← twoDigits? c d
    if hour < 24 ∧ minute < 60 then return ('+' :: two hour ++ ':' :: two minute, cs) else none
  | '-' :: a :: b :: ':' :: c :: d :: cs => do
    let hour ← twoDigits? a b
    let minute ← twoDigits? c d
    let sign := if hour = 0 ∧ minute = 0 then '+' else '-'
    if hour < 24 ∧ minute < 60 then return (sign :: two hour ++ ':' :: two minute, cs) else none
  | '+' :: _ | '-' :: _ => none
  | cs => some ([], cs)

/-- The key under which the text of a date stands in a document. -/
def dateKey : String :=
  "datetime"

/-- The document of a date or a time. -/
def dateDocument (text : List Char) : Document :=
  .table [(dateKey, .text (String.ofList text))]

/-- A date, alone or with a time of the day and an offset. -/
def readDateTime (cs : List Char) : Option (Document × List Char) := do
  let (date, cs) ← readDate cs
  let delimited := cs.head?.any fun c => c = 'T' || c = 't' || c = ' '
  if delimited && startsTime (cs.drop 1) then
    let (time, cs) ← readTime (cs.drop 1)
    let (offset, cs) ← readOffset cs
    return (dateDocument (date ++ 'T' :: time ++ offset), cs)
  else return (dateDocument date, cs)

/-- Whether a date begins here: four digits and a dash. -/
def startsDate : List Char → Bool
  | a :: b :: c :: d :: '-' :: _ => [a, b, c, d].all Char.isDigit
  | _ => false

/-! ## All scalars -/

/-- A truth value, a number, a date or a time. -/
def readScalar : Reader Document
  | 't' :: 'r' :: 'u' :: 'e' :: cs => some (.bool true, cs)
  | 'f' :: 'a' :: 'l' :: 's' :: 'e' :: cs => some (.bool false, cs)
  | cs =>
    if startsDate cs then readDateTime cs
    else if startsTime cs then do
      let (time, cs) ← readTime cs
      return (dateDocument time, cs)
    else readNumber cs

end Toml

end PluginHost
