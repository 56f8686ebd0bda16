/-
  PluginHost.Digest.Block

  What the digests have in common: bytes are gathered into blocks of 64, every
  full block is mixed into a chaining value, and the end is padded with a one
  bit, zeros and the length.  A hasher takes one byte at a time, so how the
  bytes were cut into reads leaves no trace in it.
-/
import PluginHost.Text.Hex

namespace PluginHost

/-- Four bytes as a word, the lowest byte first. -/
def littleWord (a b c d : UInt8) : UInt32 :=
  a.toUInt32 ||| b.toUInt32 <<< 8 ||| c.toUInt32 <<< 16 ||| d.toUInt32 <<< 24

/-- Four bytes as a word, the highest byte first. -/
def bigWord (a b c d : UInt8) : UInt32 :=
  littleWord d c b a

/-- The words of a block, read four bytes at a time. -/
def blockWords (word : UInt8 → UInt8 → UInt8 → UInt8 → UInt32) : Bytes → List UInt32
  | a :: b :: c :: d :: rest => word a b c d :: blockWords word rest
  | _ => []

/-- The low `count` bytes of a number, the lowest first. -/
def littleBytes (count n : Nat) : Bytes :=
  (List.range count).map fun i => (n >>> (8 * i)).toUInt8

/-- The low `count` bytes of a number, the highest first. -/
def bigBytes (count n : Nat) : Bytes :=
  (littleBytes count n).reverse

/-- A word turned left by a number of bits between 1 and 31. -/
def rotateLeft (x : UInt32) (n : UInt32) : UInt32 :=
  x <<< n ||| x >>> (32 - n)

/-- A digest by blocks: the chaining value it starts from, how a block is mixed
    in, how the length in bits is written at the end, and the bytes of the
    final value. -/
structure BlockDigest (σ : Type) where
  start : σ
  mix : σ → Bytes → σ
  lengthBytes : Nat → Bytes
  result : σ → Bytes

namespace BlockDigest

variable {σ : Type}

/-- A digest under way: the chaining value, the bytes of the block begun with
    the last one first, and the number of bytes taken. -/
structure Hasher (σ : Type) where
  chain : σ
  pending : Bytes
  total : Nat

/-- The hasher that has taken nothing. -/
def fresh (d : BlockDigest σ) : Hasher σ :=
  ⟨d.start, [], 0⟩

/-- One byte more; the byte that fills a block mixes it in. -/
def feed (d : BlockDigest σ) (h : Hasher σ) (b : UInt8) : Hasher σ :=
  if (h.total + 1) % 64 = 0 then ⟨d.mix h.chain (b :: h.pending).reverse, [], h.total + 1⟩
  else ⟨h.chain, b :: h.pending, h.total + 1⟩

/-- A run of bytes more. -/
def absorb (d : BlockDigest σ) (h : Hasher σ) (bs : Bytes) : Hasher σ :=
  bs.foldl d.feed h

/-- What is appended to a message of the given length in bytes. -/
def padding (d : BlockDigest σ) (total : Nat) : Bytes :=
  0x80 :: List.replicate ((119 - total % 64) % 64) 0 ++ d.lengthBytes (total * 8)

/-- The digest of what a hasher has taken. -/
def finish (d : BlockDigest σ) (h : Hasher σ) : Bytes :=
  d.result (d.absorb h (d.padding h.total)).chain

end BlockDigest

end PluginHost
