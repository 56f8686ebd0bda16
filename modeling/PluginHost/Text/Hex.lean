/-
  PluginHost.Text.Hex

  Bytes written as two hexadecimal digits each, the form in which payloads and
  answers of `exec` travel and in which digests are compared.
-/
import PluginHost.Text.Utf8

namespace PluginHost

namespace Hex

/-! ## Writing -/

/-- The digit of a value below sixteen, in lower case. -/
def digit (n : Nat) : Char :=
  if n < 10 then Char.ofNat (48 + n) else Char.ofNat (87 + n)

/-- The two digits of a byte. -/
def encodeByte (b : UInt8) : List Char :=
  [digit (b.toNat / 16), digit (b.toNat % 16)]

/-- Bytes as lower case hexadecimal text. -/
def encode (bs : Bytes) : String :=
  String.ofList (bs.flatMap encodeByte)

/-! ## Reading -/

/-- The value of a digit of either case. -/
def value? (c : Char) : Option Nat :=
  if '0' ≤ c ∧ c ≤ '9' then some (c.toNat - 48)
  else if 'a' ≤ c ∧ c ≤ 'f' then some (c.toNat - 87)
  else if 'A' ≤ c ∧ c ≤ 'F' then some (c.toNat - 55)
  else none

/-- Why a text is no hexadecimal text. -/
inductive Fault where
  /-- Its length in bytes is odd. -/
  | oddLength
  /-- The byte at an index of its UTF-8 form is no digit. -/
  | badDigit (byte : UInt8) (index : Nat)
  deriving DecidableEq, Repr

/-- The value of a byte that is a digit. -/
def byteValue? (b : UInt8) : Option Nat :=
  value? (Char.ofNat b.toNat)

/-- Pairs of digits from an index on, into bytes gathered last first. -/
def decodePairs (gathered : Bytes) (index : Nat) : Bytes → Except Fault Bytes
  | a :: b :: rest =>
    match byteValue? a, byteValue? b with
    | some x, some y => decodePairs ((x * 16 + y).toUInt8 :: gathered) (index + 2) rest
    | none, _ => .error (.badDigit a index)
    | some _, none => .error (.badDigit b (index + 1))
  | _ => .ok gathered.reverse

/-- The bytes of a hexadecimal text of either case.  An odd length is noticed
    before any bad digit. -/
def decode (s : String) : Except Fault Bytes :=
  let bs := Utf8.encode s
  if bs.length % 2 = 1 then .error .oddLength else decodePairs [] 0 bs

end Hex

end PluginHost
