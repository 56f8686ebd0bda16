/-
  PluginHost.Rehearsal.Stream

  What a rehearsed program reads and writes: bytes that end, or bytes that go on
  for ever because their last part repeats.
-/
import PluginHost.Text.Utf8

namespace PluginHost

namespace Rehearsal

/-- A stream: `bytes`, and then `cycle` again and again unless it is empty. -/
structure Stream where
  bytes : Bytes := []
  cycle : Bytes := []

namespace Stream

/-- A stream that goes on for ever, if there is something to repeat. -/
def forever (cycle : Bytes) : Stream :=
  { cycle }

/-- Whether a stream ends. -/
def isFinite (s : Stream) : Bool :=
  s.cycle.isEmpty

/-- The first bytes of a stream. -/
def take (s : Stream) (n : Nat) : Bytes :=
  let missing := n - s.bytes.length
  let rounds := if s.cycle.isEmpty then 0 else missing / s.cycle.length + 1
  s.bytes.take n ++ (List.replicate rounds s.cycle).flatten.take missing

/-- What comes after the first bytes of a stream. -/
def drop (s : Stream) (n : Nat) : Stream :=
  let missing := n - s.bytes.length
  let place := missing % s.cycle.length
  { bytes := s.bytes.drop n, cycle := s.cycle.drop place ++ s.cycle.take place }

/-- A stream with every byte changed. -/
def flatMap (s : Stream) (f : UInt8 → Bytes) : Stream :=
  { bytes := s.bytes.flatMap f, cycle := s.cycle.flatMap f }

/-- A stream after another one, which comes to its end first if it has one. -/
def append (s t : Stream) : Stream :=
  if s.isFinite then { bytes := s.bytes ++ t.bytes, cycle := t.cycle } else s

/-- The byte that ends a line. -/
def newline : UInt8 :=
  10

/-- How many bytes the first lines of some bytes take. -/
def lineBytes : Nat → Bytes → Nat
  | 0, _ => 0
  | _, [] => 0
  | n + 1, b :: bs => 1 + lineBytes (if b = newline then n else n + 1) bs

/-- The first lines of a stream.  A line that repeats without an end is cut
    short. -/
def takeLines (s : Stream) (n : Nat) : Bytes :=
  let enough := s.take (s.bytes.length + n * s.cycle.length)
  enough.take (lineBytes n enough)

/-- Whether bytes occur in others, one after another. -/
def occurs (part : Bytes) : Bytes → Bool
  | [] => part.isEmpty
  | b :: bs => part.isPrefixOf (b :: bs) || occurs part bs

end Stream

end Rehearsal

end PluginHost
