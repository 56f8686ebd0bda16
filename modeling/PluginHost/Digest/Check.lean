/-
  PluginHost.Digest.Check

  The digest of a file, taken while the file is read piece by piece.  All pieces
  are read into one buffer, and after each read that part of the buffer is
  digested which the read has filled.
-/
import PluginHost.Digest.Md5
import PluginHost.Digest.Sha256
import PluginHost.Storage

namespace PluginHost

/-- A digest that takes its message piece by piece. -/
structure Hashing (σ : Type) where
  start : σ
  update : σ → Bytes → σ
  /-- The bytes of the digest. -/
  finish : σ → Bytes

/-- A digest by blocks, which takes its message in pieces of any length. -/
def BlockDigest.hashing {σ : Type} (d : BlockDigest σ) : Hashing (BlockDigest.Hasher σ) :=
  ⟨d.fresh, d.absorb, d.finish⟩

/-- How the digest of a file is found out. -/
abbrev DigestCheck := Storage → String → Except IoFault String

namespace DigestCheck

/-- What one read of a file yields; no bytes at all mean its end. -/
abbrev ReadResult := Except IoFault Bytes

/-- The most bytes that one read asks for. -/
def readSize : Nat :=
  8192

variable {σ : Type}

/-! ## Reading on -/

/-- A digest under way, and the buffer that every read fills from its front. -/
structure Progress (σ : Type) where
  hasher : σ
  buffer : Bytes

/-- Nothing was read yet. -/
def Progress.start (d : Hashing σ) : Progress σ :=
  ⟨d.start, List.replicate readSize 0⟩

/-- The buffer after a read: what the read has not reached is what it was. -/
def fillBuffer (buffer piece : Bytes) : Bytes :=
  piece ++ buffer.drop piece.length

/-- What is told when the end of a file was found. -/
def Progress.result (d : Hashing σ) (p : Progress σ) : Except IoFault String :=
  .ok (Hex.encode (d.finish p.hasher))

/-- What a read leads to. -/
inductive Turn (σ : Type) where
  | goesOn (p : Progress σ)
  | ended (result : Except IoFault String)

/-- One read, and what is made of it. -/
def Progress.turn (d : Hashing σ) (p : Progress σ) : ReadResult → Turn σ
  | .error fault => .ended (.error fault)
  | .ok piece =>
    let buffer := fillBuffer p.buffer piece
    let filled := piece.length
    if filled = 0 then .ended (p.result d)
    else .goesOn ⟨d.update p.hasher (buffer.take filled), buffer⟩

/-- One read more, unless reading has ended. -/
def Turn.next (d : Hashing σ) : Turn σ → ReadResult → Turn σ
  | .goesOn p, read => p.turn d read
  | .ended result, _ => .ended result

/-- What reads lead to, one after another. -/
def after (d : Hashing σ) (reads : List ReadResult) : Turn σ :=
  reads.foldl (Turn.next d) (.goesOn (.start d))

/-- The digest of what reads yield.  Nothing stands behind the last of them. -/
def ofReads (d : Hashing σ) (reads : List ReadResult) : Except IoFault String :=
  match after d reads with
  | .goesOn p => p.result d
  | .ended result => result

/-! ## Files -/

/-- The reads that yield a content, each as large as it can be.  The fuel bounds
    their number. -/
def readsOf : Nat → Bytes → List ReadResult
  | 0, _ => []
  | _, [] => [.ok []]
  | fuel + 1, content => .ok (content.take readSize) :: readsOf fuel (content.drop readSize)

/-- The reads of a file: opening it may fail, and so may reading. -/
def reads (storage : Storage) (path : String) : List ReadResult :=
  match storage.read path with
  | .ok content => readsOf (content.length + 1) content
  | .error fault => [.error fault]

/-- The digest of a file. -/
def ofFile (d : Hashing σ) : DigestCheck := fun storage path =>
  ofReads d (reads storage path)

/-- The MD5 digest of a file. -/
def md5 : DigestCheck :=
  ofFile Md5.digest.hashing

/-- The SHA-256 digest of a file. -/
def sha256 : DigestCheck :=
  ofFile Sha256.digest.hashing

/-- The same digest for every file. -/
def fixed (digest : String) : DigestCheck := fun _ _ =>
  .ok digest

/-- A check that cannot read any file. -/
def failing : DigestCheck := fun _ _ =>
  .error (.other "check failed")

end DigestCheck

end PluginHost
