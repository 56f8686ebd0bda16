/-
  PluginHost.Json.Number

  Numbers in JSON text.  Integers of 64 bits are exact.  Every other number is
  the double of its leading digits, as many as a word of 64 bits holds, times or
  divided by the double of a power of ten: one rounding for the digits, one for
  the power and one for the result.
-/
import PluginHost.Document

namespace PluginHost

namespace Json

namespace Number

/-- The largest significand. -/
def limit : Nat :=
  UInt64.size - 1

/-- The value of a decimal digit. -/
def digit? (c : Char) : Option Nat :=
  if '0' ≤ c ∧ c ≤ '9' then some (c.toNat - 48) else none

/-- The digits at the front of a text, and the rest. -/
def takeDigits (taken : List Nat) : List Char → List Nat × List Char
  | [] => (taken.reverse, [])
  | c :: cs =>
    match digit? c with
    | some d => takeDigits (d :: taken) cs
    | none => (taken.reverse, c :: cs)

/-- A number as it is written: the digits before the point, those after it, and
    the exponent. -/
structure Written where
  whole : List Nat
  fraction : Option (List Nat)
  exponent : Option Int

/-- The digits that follow the point, at least one. -/
def readFraction : List Char → Option (Option (List Nat) × List Char)
  | '.' :: cs =>
    match takeDigits [] cs with
    | ([], _) => none
    | (ds, rest) => some (some ds, rest)
  | cs => some (none, cs)

/-- Digits as a number. -/
def ofDigits (ds : List Nat) : Nat :=
  ds.foldl (fun n d => n * 10 + d) 0

/-- The digits of an exponent, at least one, with its sign. -/
def readPower (negative : Bool) (cs : List Char) : Option (Option Int × List Char) :=
  match takeDigits [] cs with
  | ([], _) => none
  | (ds, rest) => some (some (if negative then -(ofDigits ds : Int) else ofDigits ds), rest)

/-- The exponent, if there is one. -/
def readExponent : List Char → Option (Option Int × List Char)
  | [] => some (none, [])
  | c :: cs =>
    if c = 'e' ∨ c = 'E' then
      match cs with
      | '+' :: cs => readPower false cs
      | '-' :: cs => readPower true cs
      | cs => readPower false cs
    else some (none, c :: cs)

/-- A number without its sign: a lone zero or digits that begin with another
    digit, then a fraction and an exponent. -/
def readWritten (cs : List Char) : Option (Written × List Char) :=
  let (whole, rest) := takeDigits [] cs
  if whole = [] ∨ whole.head? = some 0 ∧ 1 < whole.length then none
  else do
    let (fraction, rest) ← readFraction rest
    let (exponent, rest) ← readExponent rest
    return (⟨whole, fraction, exponent⟩, rest)

/-- Digits appended to a significand as long as it stays within the limit, and
    the digits left over. -/
def accumulate (significand : Nat) : List Nat → Nat × List Nat
  | [] => (significand, [])
  | d :: ds =>
    if significand * 10 + d ≤ limit then accumulate (significand * 10 + d) ds
    else (significand, d :: ds)

/-- A magnitude times `10^e`, or `none` if it leaves the range.  Powers beyond
    `10^308` are applied in steps. -/
def scale (x : Double) (e : Int) : Option Double :=
  if 0 ≤ e then
    if e ≤ 308 then
      match x.mul (.pow10 e.toNat) with
      | .infinite _ => none
      | y => some y
    else if x.isZero then some x
    else none
  else if -308 ≤ e then some (x.div (.pow10 (-e).toNat))
  else if x.isZero then some x
  else scale (x.div (.pow10 308)) (e + 308)
termination_by (-e).toNat
decreasing_by omega

/-- The document of a number. -/
def Written.toDocument (negative : Bool) (w : Written) : Document :=
  let (significand, more) := accumulate 0 w.whole
  if more = [] ∧ w.fraction = none ∧ w.exponent = none then
    if !negative then .int significand
    else if significand = 0 ∨ UInt64.size / 2 < significand then
      .double ((Double.ofNat significand).withSign true)
    else .int (-(significand : Int))
  else
    let fraction := w.fraction.getD []
    let (significand, rest) := accumulate significand fraction
    let places : Int := (more.length : Int) - (fraction.length - rest.length : Nat)
    match scale (Double.ofNat significand) (places + w.exponent.getD 0) with
    | some x => .double (x.withSign negative)
    | none => .overflow

end Number

end Json

end PluginHost
