/-
  PluginHost.Number.Double

  Floating point numbers of 64 bits as exact values: a sign and `m · 2^q` with
  `m < 2^53`.  Every operation is the exact one followed by `ofRatio`, which
  rounds to the nearest double, a tie to the even one.
-/

namespace PluginHost

/-- A double.  A finite one has `mantissa < 2^53` and `exponent ≥ -1074`, and
    `mantissa ≥ 2^52` unless the exponent is the least. -/
inductive Double where
  | finite (negative : Bool) (mantissa : Nat) (exponent : Int)
  | infinite (negative : Bool)
  | nan
  deriving DecidableEq, Repr

namespace Double

/-! ## Rounding -/

/-- The least mantissa of 53 bits. -/
def hiddenBit : Nat :=
  1 <<< 52

/-- A power of ten. -/
def tenTo (n : Nat) : Nat :=
  Nat.pow 10 n

/-- The nearest natural number to `num / den`, of two the even one. -/
def roundDiv (num den : Nat) : Nat :=
  let quotient := num / den
  let twice := 2 * (num % den)
  if twice < den then quotient
  else if den < twice then quotient + 1
  else quotient + quotient % 2

/-- `num / den · 2^-e` as a quotient of natural numbers. -/
def scaleBinary (num den : Nat) (e : Int) : Nat × Nat :=
  if 0 ≤ e then (num, den <<< e.toNat) else (num <<< (-e).toNat, den)

/-- The exponent that leaves a mantissa of 53 bits for `num / den`, or the least
    exponent of all. -/
def exponentFor (num den : Nat) : Int :=
  let guess : Int := (num.log2 : Int) - den.log2 - 52
  let (n, d) := scaleBinary num den guess
  max (-1074) (if n < d * hiddenBit then guess - 1 else guess)

/-- The double nearest to `num / den`; from half a unit above the largest one
    on it is infinite. -/
def ofRatio (negative : Bool) (num den : Nat) : Double :=
  if num = 0 then .finite negative 0 (-1074)
  else
    let e := exponentFor num den
    let (n, d) := scaleBinary num den e
    let m := roundDiv n d
    let (m, e) := if m = 2 * hiddenBit then (hiddenBit, e + 1) else (m, e)
    if 971 < e then .infinite negative else .finite negative m e

/-- The double nearest to a natural number. -/
def ofNat (n : Nat) : Double :=
  ofRatio false n 1

/-- The double nearest to `digits · 10^e`.  Exponents that leave no doubt are
    answered without the power. -/
def ofDecimal (negative : Bool) (digits : Nat) (e : Int) : Double :=
  if digits = 0 then .finite negative 0 (-1074)
  else
    let size : Int := (Nat.toDigits 10 digits).length + e
    if 310 < size then .infinite negative
    else if size < -330 then .finite negative 0 (-1074)
    else if 0 ≤ e then ofRatio negative (digits * tenTo e.toNat) 1
    else ofRatio negative digits (tenTo (-e).toNat)

/-! ## Arithmetic -/

/-- The same magnitude with a sign. -/
def withSign (negative : Bool) : Double → Double
  | .finite _ m e => .finite negative m e
  | .infinite _ => .infinite negative
  | .nan => .nan

/-- A finite magnitude as a quotient. -/
def ratio (m : Nat) (e : Int) : Nat × Nat :=
  if 0 ≤ e then (m <<< e.toNat, 1) else (m, 1 <<< (-e).toNat)

/-- The product of two magnitudes. -/
def mul : Double → Double → Double
  | .finite _ m e, .finite _ m' e' =>
    let (n, d) := ratio m e
    let (n', d') := ratio m' e'
    ofRatio false (n * n') (d * d')
  | .nan, _ | _, .nan => .nan
  | _, _ => .infinite false

/-- The quotient of two finite magnitudes, the second one not zero. -/
def div : Double → Double → Double
  | .finite _ m e, .finite _ m' e' =>
    let (n, d) := ratio m e
    let (n', d') := ratio m' e'
    ofRatio false (n * d') (d * n')
  | _, _ => .nan

/-- Whether a double is a zero of either sign. -/
def isZero : Double → Bool
  | .finite _ m _ => m = 0
  | _ => false

/-- The power of ten nearest to `10^n`. -/
def pow10 (n : Nat) : Double :=
  ofDecimal false 1 n

end Double

end PluginHost
