/-
  PluginHost.Number.Shortest

  The fewest decimal digits that read back as a given double, and of those the
  nearest to it, in exact arithmetic; then the two layouts in which they are
  written: plain decimals, and with an exponent where the plain form is long.
-/
import PluginHost.Number.Double

namespace PluginHost

namespace Double

/-! ## Digits -/

/-- The positive reals that round to `m · 2^e`, as bounds over one denominator,
    with the value between them.  The bounds belong to it exactly if the
    mantissa is even. -/
structure Reach where
  low : Nat
  value : Nat
  high : Nat
  den : Nat
  closed : Bool

/-- What rounds to a mantissa and exponent.  Below a power of two the
    neighbouring doubles lie half as far apart. -/
def reach (m : Nat) (e : Int) : Reach :=
  let narrow := m = hiddenBit ∧ -1074 < e
  let (n, d) := ratio 1 (e - 2)
  ⟨(if narrow then 4 * m - 1 else 4 * m - 2) * n, 4 * m * n, (4 * m + 2) * n, d, m % 2 = 0⟩

/-- The least exponent `k` with `num / den < 10^k`. -/
def decimalSize (num den : Nat) : Int :=
  let guess : Int := ((Nat.toDigits 10 num).length : Int) - (Nat.toDigits 10 den).length
  if num * tenTo (-guess).toNat < den * tenTo guess.toNat then guess else guess + 1

/-- Whether `digits · 10^k` lies within reach. -/
def Reach.covers (r : Reach) (digits : Nat) (k : Int) : Bool :=
  let x := digits * r.den * tenTo k.toNat
  let scale := tenTo (-k).toNat
  if r.closed then r.low * scale ≤ x && x ≤ r.high * scale
  else r.low * scale < x && x < r.high * scale

/-- The point of the grid `10^k` that is within reach and nearest to the value;
    of two equally near the even one. -/
def Reach.onGrid (r : Reach) (k : Int) : Option Nat :=
  let num := r.value * tenTo (-k).toNat
  let den := r.den * tenTo k.toNat
  let below := num / den
  let nearest := roundDiv num den
  let other := if nearest = below then below + 1 else below
  if r.covers nearest k then some nearest
  else if r.covers other k then some other
  else none

/-- The first grid, from the coarsest on, with a point within reach. -/
def Reach.shortest (r : Reach) (size : Int) : Nat → Nat → Nat × Int
  | _, 0 => (0, 0)
  | n, fuel + 1 =>
    match r.onGrid (size - n) with
    | some digits => (digits, size - n)
    | none => r.shortest size (n + 1) fuel

/-- Digits without the zeros at their end, which go into the exponent. -/
def trimZeros (digits : Nat) (k : Int) : Nat → Nat × Int
  | 0 => (digits, k)
  | fuel + 1 =>
    if digits % 10 = 0 ∧ digits ≠ 0 then trimZeros (digits / 10) (k + 1) fuel else (digits, k)

/-- The fewest digits `d` and the exponent `k` such that `d · 10^k` reads back as
    `m · 2^e`. -/
def shortestDigits (m : Nat) (e : Int) : Nat × Int :=
  if m = 0 then (0, 0)
  else
    let r := reach m e
    let (digits, k) := r.shortest (decimalSize r.value r.den) 1 20
    trimZeros digits k 20

/-! ## Layouts -/

/-- Digits as text. -/
def digitText (n : Nat) : List Char :=
  Nat.toDigits 10 n

/-- `digits · 10^k` with a point and at least one digit on either side of it. -/
def plainText (digits : Nat) (k : Int) : List Char :=
  if 0 ≤ k then digitText digits ++ List.replicate (if digits = 0 then 0 else k.toNat) '0' ++ ['.', '0']
  else
    let places := (-k).toNat
    let ds := digitText digits
    let ds := List.replicate (places + 1 - ds.length) '0' ++ ds
    ds.take (ds.length - places) ++ '.' :: ds.drop (ds.length - places)

/-- `digits · 10^k` with one digit before the point and a signed exponent. -/
def exponentText (digits : Nat) (k : Int) : List Char :=
  let ds := digitText digits
  let e := k + ds.length - 1
  let mark := if e < 0 then ['e', '-'] else ['e', '+']
  match ds with
  | d :: rest@(_ :: _) => d :: '.' :: rest ++ mark ++ digitText e.natAbs
  | ds => ds ++ mark ++ digitText e.natAbs

/-- The sign of a text. -/
def signText (negative : Bool) : List Char :=
  if negative then ['-'] else []

/-- A double in plain decimals, however long. -/
def toPlain : Double → String
  | .nan => "NaN"
  | .infinite negative => String.ofList (signText negative ++ ['i', 'n', 'f'])
  | .finite negative m e =>
    let (digits, k) := shortestDigits m e
    String.ofList (signText negative ++ plainText digits k)

/-- A finite double in plain decimals from `10^-5` up to `10^16`, else with an
    exponent. -/
def toScientific : Double → String
  | .finite negative m e =>
    let (digits, k) := shortestDigits m e
    let size := k + (digitText digits).length
    let body :=
      if digits = 0 ∨ (-4 ≤ size ∧ size ≤ 16) then plainText digits k else exponentText digits k
    String.ofList (signText negative ++ body)
  | x => x.toPlain

end Double

end PluginHost
