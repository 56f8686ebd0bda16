/-
  PluginHost.Text.Utf8

  Bytes and the text they carry.  Reading is strict (`decode?`) where a file
  has to be text, and lossy (`decodeLossy`) where the output of a process or
  the body of an answer is shown whatever it holds: every maximal part that
  starts no character becomes one U+FFFD.
-/

namespace PluginHost

/-- The bytes of a file, a payload or an output stream. -/
abbrev Bytes := List UInt8

namespace Utf8

/-! ## Characters to bytes -/

/-- The one to four bytes of a character. -/
def encodeChar (c : Char) : Bytes :=
  let n := c.toNat
  if n < 0x80 then [n.toUInt8]
  else if n < 0x800 then [(0xC0 + n / 64).toUInt8, (0x80 + n % 64).toUInt8]
  else if n < 0x10000 then
    [(0xE0 + n / 4096).toUInt8, (0x80 + n / 64 % 64).toUInt8, (0x80 + n % 64).toUInt8]
  else
    [(0xF0 + n / 262144).toUInt8, (0x80 + n / 4096 % 64).toUInt8,
      (0x80 + n / 64 % 64).toUInt8, (0x80 + n % 64).toUInt8]

/-- The bytes of a text. -/
def encode (s : String) : Bytes :=
  s.toList.flatMap encodeChar

/-! ## Bytes to characters -/

/-- A byte that continues a character. -/
def isContinuation (b : UInt8) : Bool :=
  0x80 ≤ b && b < 0xC0

/-- What the first byte of a character promises: how many bytes follow, the
    bits it contributes, and the range of the byte right after it. -/
structure Lead where
  follow : Nat
  bits : Nat
  low : UInt8
  high : UInt8

/-- The promise of a first byte of a character of two or more bytes.  The ranges
    leave out overlong forms, surrogates and everything above U+10FFFF. -/
def Lead.ofByte? (b : UInt8) : Option Lead :=
  if 0xC2 ≤ b && b ≤ 0xDF then some ⟨1, b.toNat - 0xC0, 0x80, 0xBF⟩
  else if b == 0xE0 then some ⟨2, 0, 0xA0, 0xBF⟩
  else if b == 0xED then some ⟨2, 0xD, 0x80, 0x9F⟩
  else if 0xE1 ≤ b && b ≤ 0xEF then some ⟨2, b.toNat - 0xE0, 0x80, 0xBF⟩
  else if b == 0xF0 then some ⟨3, 0, 0x90, 0xBF⟩
  else if 0xF1 ≤ b && b ≤ 0xF3 then some ⟨3, b.toNat - 0xF0, 0x80, 0xBF⟩
  else if b == 0xF4 then some ⟨3, 4, 0x80, 0x8F⟩
  else none

/-- Where a reader stands: between characters, or inside one with `left` bytes
    still to come, the next of them between `low` and `high`. -/
inductive State where
  | between
  | inside (left : Nat) (bits : Nat) (low high : UInt8)

/-- A part of what bytes carry: a character, or `none` for bytes that are no
    character. -/
abbrev Part := Option Char

/-- What one byte adds, and where the reader stands after it. -/
def State.feedFresh (b : UInt8) : List Part × State :=
  if b < 0x80 then ([some (Char.ofNat b.toNat)], .between)
  else match Lead.ofByte? b with
    | some l => ([], .inside l.follow l.bits l.low l.high)
    | none => ([none], .between)

/-- One byte more.  A byte that does not continue the character begun ends it
    as a part that is no character, and is read afresh. -/
def State.feed : State → UInt8 → List Part × State
  | .between, b => State.feedFresh b
  | .inside left bits low high, b =>
    if low ≤ b && b ≤ high then
      let bits := bits * 64 + (b.toNat - 0x80)
      if left ≤ 1 then ([some (Char.ofNat bits)], .between)
      else ([], .inside (left - 1) bits 0x80 0xBF)
    else
      let (ps, s) := State.feedFresh b
      (none :: ps, s)

/-- What the end of the bytes adds. -/
def State.finish : State → List Part
  | .between => []
  | .inside .. => [none]

/-- A reader with the parts it has read, the last one first. -/
structure Reading where
  read : List Part := []
  state : State := .between

/-- The reader after one byte more. -/
def Reading.step (r : Reading) (b : UInt8) : Reading :=
  let (ps, s) := r.state.feed b
  ⟨ps.reverse ++ r.read, s⟩

/-- The parts of bytes: their characters, and `none` for every maximal part that
    is no character. -/
def parts (bs : Bytes) : List Part :=
  let r := bs.foldl Reading.step {}
  (r.state.finish.reverse ++ r.read).reverse

/-- The character that stands for bytes that are none. -/
def replacement : Char := '\uFFFD'

/-- The text of bytes, one U+FFFD for every maximal part that is no text. -/
def decodeLossy (bs : Bytes) : String :=
  String.ofList ((parts bs).map (·.getD replacement))

/-- The text of bytes that are text throughout. -/
def decode? (bs : Bytes) : Option String :=
  String.ofList <$> (parts bs).mapM id

end Utf8

end PluginHost
