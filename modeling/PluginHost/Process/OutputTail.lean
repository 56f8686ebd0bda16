/-
  PluginHost.Process.OutputTail

  The end of what a process has written.  Of everything written, the last bytes
  are kept, up to a limit.
-/
import PluginHost.Text.Utf8

namespace PluginHost

/-- What one read from a stream gives. -/
inductive StreamRead where
  /-- Bytes of the stream, and none at its end. -/
  | data (piece : Bytes)
  | failed
  deriving DecidableEq

/-- The kept end of a stream of bytes. -/
structure OutputTail where
  limit : Nat := 64 * 1024
  bytes : Bytes := []
  deriving DecidableEq

namespace OutputTail

/-- What is left of bytes when only the last `limit` are kept. -/
def keepLast (limit : Nat) (bs : Bytes) : Bytes :=
  bs.drop (bs.length - limit)

/-- The tail after one more piece of the stream. -/
def write (t : OutputTail) (piece : Bytes) : OutputTail :=
  { t with bytes := keepLast t.limit (t.bytes ++ piece) }

/-- The number of bytes kept. -/
def length (t : OutputTail) : Nat :=
  t.bytes.length

/-- Whether nothing is kept. -/
def isEmpty (t : OutputTail) : Bool :=
  t.bytes.isEmpty

/-- The kept bytes as text. -/
def toText (t : OutputTail) : String :=
  Utf8.decodeLossy t.bytes

/-- The most bytes that are taken from a stream at once. -/
def readSize : Nat :=
  4096

/-- The tail after a stream was read up to its end, or to a read that fails. -/
def pump (t : OutputTail) : List StreamRead → OutputTail
  | [] => t
  | .failed :: _ => t
  | .data piece :: reads => if piece = [] then t else (t.write piece).pump reads

/-- The reads of a stream that is there as a whole, each as large as it can be. -/
def readsOf (stream : Bytes) : List StreamRead :=
  if stream = [] then [.data []]
  else .data (stream.take readSize) :: readsOf (stream.drop readSize)
termination_by stream.length
decreasing_by
  rename_i hsome
  have hpos := List.length_pos_iff.2 hsome
  rw [List.length_drop, readSize]
  omega

end OutputTail

end PluginHost
