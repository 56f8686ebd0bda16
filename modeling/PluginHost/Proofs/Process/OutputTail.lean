/-
  PluginHost.Proofs.Process.OutputTail

  A buffer keeps the end of what is written to it.  Its clones share their bytes, and
  each has the limit of the buffer that it was made of; so whichever of them is written
  to, all show the same: the last bytes of everything written so far, as many as the
  limit allows (`keeps_end`).

    * `Keeps limit written t` — what a clone shows once `written` was written.
    * `Moves a x y` — what one use of a clone comes to.
    * `Delivers stream reads` — the reads give a stream piece by piece, up to its end or
      to a read that fails.

  A process's output comes by reads of any lengths.  Each piece is one write, so that the
  buffer ends with the end of the stream, however the reads have cut it.
-/
import Mathlib.Data.List.Infix
import PluginHost.Process.OutputTail

namespace PluginHost
namespace OutputTail

/-! ## The last bytes -/

theorem keepLast_suffix (limit : Nat) (bs : Bytes) : keepLast limit bs <:+ bs :=
  List.drop_suffix _ bs

theorem length_keepLast (limit : Nat) (bs : Bytes) :
    (keepLast limit bs).length = min limit bs.length := by
  rw [keepLast, List.length_drop]
  omega

/-- What was cut off before is not missed later. -/
theorem keepLast_append (limit : Nat) (bs piece : Bytes) :
    keepLast limit (keepLast limit bs ++ piece) = keepLast limit (bs ++ piece) := by
  have hsuffix : keepLast limit bs ++ piece <:+ bs ++ piece := by
    obtain ⟨front, hfront⟩ := keepLast_suffix limit bs
    refine ⟨front, ?_⟩
    rw [← List.append_assoc, hfront]
  -- Both are ends of the whole, and they have the same length.
  have hleft := (keepLast_suffix limit (keepLast limit bs ++ piece)).trans hsuffix
  have hright := keepLast_suffix limit (bs ++ piece)
  have hlength : (keepLast limit (keepLast limit bs ++ piece)).length
      = (keepLast limit (bs ++ piece)).length := by
    simp only [length_keepLast, List.length_append]
    omega
  exact (List.suffix_of_suffix_length_le hleft hright hlength.le).eq_of_length hlength

/-! ## Writing -/

/-- What a buffer shows once bytes were written to it. -/
structure Keeps (limit : Nat) (written : Bytes) (t : OutputTail) : Prop where
  limit_eq : t.limit = limit
  /-- The bytes are the last ones of all. -/
  suffix : t.bytes <:+ written
  length : t.length = min limit written.length
  isEmpty : t.isEmpty = true ↔ t.length = 0

variable {limit : Nat} {written piece stream : Bytes} {t u : OutputTail}

theorem keeps_iff : Keeps limit written t ↔ t = ⟨limit, keepLast limit written⟩ := by
  constructor
  · intro h
    obtain ⟨limit', bytes⟩ := t
    obtain rfl : limit' = limit := h.limit_eq
    have hlength : bytes.length = (keepLast limit' written).length := by
      rw [length_keepLast]
      exact h.length
    have hsuffix : bytes <:+ keepLast limit' written :=
      List.suffix_of_suffix_length_le h.suffix (keepLast_suffix limit' written) hlength.le
    rw [hsuffix.eq_of_length hlength]
  · rintro rfl
    refine ⟨rfl, keepLast_suffix limit written, length_keepLast limit written, ?_⟩
    rw [isEmpty, length, List.isEmpty_iff, List.length_eq_zero_iff]

theorem keepLast_nil (limit : Nat) : keepLast limit [] = [] :=
  List.drop_nil

theorem keeps_fresh (limit : Nat) : Keeps limit [] { limit } := by
  rw [keeps_iff, keepLast_nil]

theorem Keeps.write (h : Keeps limit written t) (piece : Bytes) :
    Keeps limit (written ++ piece) (t.write piece) := by
  obtain rfl := keeps_iff.1 h
  rw [keeps_iff, OutputTail.write, keepLast_append]

/-- What was written tells all that a buffer shows. -/
theorem Keeps.unique (h : Keeps limit written t) (h' : Keeps limit written u) : t = u := by
  rw [keeps_iff.1 h, keeps_iff.1 h']

/-! ## Clones -/

/-- A buffer with its clones. -/
structure Shared where
  /-- The bytes that all clones share. -/
  bytes : Bytes := []
  /-- The limits of the clones, by their numbers. -/
  limits : List Nat

/-- A buffer that was just made. -/
def Shared.fresh (limit : Nat) : Shared where
  limits := [limit]

/-- What a clone shows. -/
def Shared.view? (x : Shared) (i : Nat) : Option OutputTail :=
  x.limits[i]?.map fun limit => { limit, bytes := x.bytes }

/-- What is done with a buffer. -/
inductive Act where
  /-- One clone more is made of a clone. -/
  | clone (i : Nat)
  /-- Bytes are written through a clone. -/
  | write (i : Nat) (piece : Bytes)

/-- What is written by an act. -/
def Act.output : Act → Bytes
  | .clone _ => []
  | .write _ piece => piece

/-- What one act makes of a buffer. -/
inductive Moves : Act → Shared → Shared → Prop
  | clone {x : Shared} {i : Nat} {t : OutputTail} (h : x.view? i = some t) :
      Moves (.clone i) x { x with limits := x.limits ++ [t.limit] }
  | write {x : Shared} {i : Nat} {t : OutputTail} (h : x.view? i = some t) (piece : Bytes) :
      Moves (.write i piece) x { x with bytes := (t.write piece).bytes }

/-- A buffer has come to what it is by acts. -/
inductive Run (x₀ : Shared) : List Act → Shared → Prop
  | nil : Run x₀ [] x₀
  | snoc {acts : List Act} {a : Act} {x y : Shared} (h : Run x₀ acts x) (hm : Moves a x y) :
      Run x₀ (acts ++ [a]) y

/-- Everything that was written, in order. -/
def writtenIn (acts : List Act) : Bytes :=
  acts.flatMap Act.output

variable {acts : List Act} {a : Act} {x y : Shared} {i : Nat}

theorem writtenIn_snoc (acts : List Act) (a : Act) :
    writtenIn (acts ++ [a]) = writtenIn acts ++ a.output := by
  simp [writtenIn]

theorem limit_mem_of_view? (h : x.view? i = some t) : t.limit ∈ x.limits := by
  obtain ⟨limit, hlimit, rfl⟩ := Option.map_eq_some_iff.1 h
  exact List.mem_of_getElem? hlimit

/-- All clones have the limit of the buffer, and their bytes are the end of what was
    written. -/
structure Inv (limit : Nat) (written : Bytes) (x : Shared) : Prop where
  limits : ∀ l ∈ x.limits, l = limit
  bytes : x.bytes = keepLast limit written

theorem Inv.view (h : Inv limit written x) (hi : x.view? i = some t) : Keeps limit written t := by
  have hlimit : t.limit = limit := h.limits _ (limit_mem_of_view? hi)
  obtain ⟨l, -, rfl⟩ := Option.map_eq_some_iff.1 hi
  rw [keeps_iff, ← h.bytes, ← hlimit]

theorem Inv.move (h : Inv limit written x) (hm : Moves a x y) :
    Inv limit (written ++ a.output) y := by
  cases hm with
  | @clone _ i t hi =>
    refine ⟨?_, ?_⟩
    · intro l hl
      obtain hold | rfl := (List.mem_append.1 hl).imp_right List.mem_singleton.1
      · exact h.limits l hold
      · exact (h.view hi).limit_eq
    · rw [Act.output, List.append_nil]
      exact h.bytes
  | @write _ i t hi piece =>
    have hkeeps := keeps_iff.1 ((h.view hi).write piece)
    exact ⟨h.limits, congrArg OutputTail.bytes hkeeps⟩

theorem Run.inv (h : Run (.fresh limit) acts x) : Inv limit (writtenIn acts) x := by
  induction h with
  | nil =>
    refine ⟨?_, (keepLast_nil limit).symm⟩
    intro l hl
    exact List.mem_singleton.1 hl
  | snoc _ hm ih =>
    rw [writtenIn_snoc]
    exact ih.move hm

/-! ## Streams -/

/-- The reads give a stream piece by piece.  Whatever would be read after its end, or
    after a read that fails, is not asked for. -/
inductive Delivers : Bytes → List StreamRead → Prop
  | ended (later : List StreamRead) : Delivers [] (.data [] :: later)
  | failed (later : List StreamRead) : Delivers [] (.failed :: later)
  | piece {piece stream : Bytes} {reads : List StreamRead} (hsome : piece ≠ [])
      (hsize : piece.length ≤ readSize) (h : Delivers stream reads) :
      Delivers (piece ++ stream) (.data piece :: reads)

/-- Every stream can be read. -/
theorem delivers_readsOf (stream : Bytes) : Delivers stream (readsOf stream) := by
  rw [readsOf]
  split
  · rename_i hnone
    rw [hnone]
    exact .ended []
  · rename_i hsome
    have hpos := List.length_pos_iff.2 hsome
    have hread : 0 < readSize := Nat.succ_pos _
    have htake : stream.take readSize ≠ [] := by
      rw [← List.length_pos_iff, List.length_take]
      omega
    have hdrop : (stream.drop readSize).length < stream.length := by
      rw [List.length_drop]
      omega
    have hrest := Delivers.piece htake (List.length_take_le _ _)
      (delivers_readsOf (stream.drop readSize))
    rwa [List.take_append_drop] at hrest
termination_by stream.length
decreasing_by exact hdrop

theorem Keeps.pump {reads : List StreamRead} (h : Delivers stream reads)
    (ht : Keeps limit written t) : Keeps limit (written ++ stream) (t.pump reads) := by
  induction h generalizing written t with
  | ended later =>
    rw [List.append_nil]
    exact ht
  | failed later =>
    rw [List.append_nil]
    exact ht
  | @piece piece stream reads hsome hsize _ ih =>
    rw [OutputTail.pump, if_neg hsome, ← List.append_assoc]
    exact ih (ht.write piece)

/-- Whatever is written, through whichever clones: each clone shows the last bytes of it
    all.  So the buffer of a process ends with the last bytes of its output, however the
    reads have cut that, and however it has come to its end. -/
theorem keeps_end (limit : Nat) :
    (∀ acts x, Run (.fresh limit) acts x → ∀ i t, x.view? i = some t →
      Keeps limit (writtenIn acts) t) ∧
    ∀ stream reads, Delivers stream reads →
      Keeps limit stream (({ limit } : OutputTail).pump reads) ∧
      ∀ reads', Delivers stream reads' →
        ({ limit } : OutputTail).pump reads' = ({ limit } : OutputTail).pump reads := by
  constructor
  · intro acts x hrun i t hi
    exact hrun.inv.view hi
  · intro stream reads hreads
    have hkeeps := (keeps_fresh limit).pump hreads
    refine ⟨hkeeps, ?_⟩
    intro reads' hreads'
    exact ((keeps_fresh limit).pump hreads').unique hkeeps

/-! ## Two clones -/

/-- A buffer for four bytes is written to, and so is a clone of it. -/
def twoWrites : List Act :=
  [.write 0 [97, 98, 99], .clone 0, .write 1 [100, 101, 102]]

theorem run_twoWrites : ∃ x, Run (.fresh 4) twoWrites x ∧ x.limits.length = 2 := by
  have hfirst : Run (.fresh 4) [.write 0 [97, 98, 99]]
      { bytes := [97, 98, 99], limits := [4] } :=
    Run.nil.snoc (@Moves.write _ 0 { limit := 4 } rfl [97, 98, 99])
  have hclone := hfirst.snoc (@Moves.clone _ 0 _ rfl)
  exact ⟨_, hclone.snoc (@Moves.write _ 1 _ rfl [100, 101, 102]), rfl⟩

/-- Both clones show the last four bytes, and so does the buffer of a process whose output
    comes in two pieces before it cannot be read any more. -/
theorem two_clones_keep_end :
    (∃ x, Run (.fresh 4) twoWrites x ∧ x.limits.length = 2 ∧
      ∀ i t, x.view? i = some t → Keeps 4 [97, 98, 99, 100, 101, 102] t) ∧
    Keeps 4 [97, 98, 99, 100, 101, 102]
      (({ limit := 4 } : OutputTail).pump [.data [97], .data [98, 99, 100, 101, 102], .failed]) := by
  constructor
  · obtain ⟨x, hrun, hclones⟩ := run_twoWrites
    exact ⟨x, hrun, hclones, (keeps_end 4).1 twoWrites x hrun⟩
  · have hlast : Delivers [98, 99, 100, 101, 102] [.data [98, 99, 100, 101, 102], .failed] :=
      @Delivers.piece [98, 99, 100, 101, 102] [] _ (by decide) (by decide) (.failed [])
    have hreads : Delivers [97, 98, 99, 100, 101, 102] (.data [97] :: _) :=
      @Delivers.piece [97] _ _ (by decide) (by decide) hlast
    exact ((keeps_end 4).2 _ _ hreads).1

end OutputTail
end PluginHost
