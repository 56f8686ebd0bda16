/-
  PluginHost.Proofs.Digest.WholeFile

  The digest of a file is that of its content, in whichever pieces the content is read.
  All reads fill one buffer, and what an earlier read has left behind in it is never
  digested (`take_fillBuffer`); so after any number of reads everything read so far was
  taken once and in order (`after_pieces`).

    * `Delivers content pieces` — the reads that a file with a content may answer with:
      some of the bytes that come next, and none once all were read.
    * `EndsWith d reads result` — reading ends after finitely many reads, with a result.

  Of a digest nothing is used but that two pieces may as well be taken as one
  (`Hashing.IsCompositional`), which holds of every digest by blocks.
-/
import Mathlib.Data.List.Infix
import Mathlib.Data.Nat.Find
import PluginHost.Digest.Check
import PluginHost.Proofs.Text.Hex

namespace PluginHost

/-! ## Digests -/

section Digests

variable {σ : Type}

/-- Two pieces may as well be taken as one. -/
def Hashing.IsCompositional (d : Hashing σ) : Prop :=
  ∀ hasher bs cs, d.update (d.update hasher bs) cs = d.update hasher (bs ++ cs)

/-- The hasher that has taken a message at once.  Nothing at all is not taken. -/
def Hashing.taken (d : Hashing σ) (message : Bytes) : σ :=
  if message = [] then d.start else d.update d.start message

/-- The digest of a message. -/
def Hashing.digest (d : Hashing σ) (message : Bytes) : Bytes :=
  d.finish (d.taken message)

variable {d : Hashing σ}

theorem Hashing.IsCompositional.update_taken (h : d.IsCompositional) (message : Bytes)
    {piece : Bytes} (hsome : piece ≠ []) :
    d.update (d.taken message) piece = d.taken (message ++ piece) := by
  have hwhole : message ++ piece ≠ [] := List.append_ne_nil_of_right_ne_nil message hsome
  rw [Hashing.taken, Hashing.taken, if_neg hwhole]
  by_cases hnone : message = []
  · rw [if_pos hnone, hnone, List.nil_append]
  · rw [if_neg hnone, h]

theorem Hashing.IsCompositional.foldl_update (h : d.IsCompositional) {pieces : List Bytes}
    (hsome : ∀ p ∈ pieces, p ≠ []) :
    pieces.foldl d.update d.start = d.taken pieces.flatten := by
  induction pieces using List.reverseRecOn with
  | nil => rfl
  | append_singleton pieces piece ih =>
    have hpiece : piece ≠ [] := hsome piece (List.mem_append_right _ (List.mem_singleton.2 rfl))
    rw [List.foldl_append, ih fun p hp => hsome p (List.mem_append_left _ hp), List.foldl_cons,
      List.foldl_nil, h.update_taken _ hpiece, List.flatten_append, List.flatten_singleton]

theorem BlockDigest.hashing_isCompositional (d : BlockDigest σ) : d.hashing.IsCompositional := by
  intro hasher bs cs
  exact (List.foldl_append ..).symm

end Digests

/-- A text is that of bytes in lower case hexadecimal digits. -/
structure Hex.IsLower (text : String) (bs : Bytes) : Prop where
  digits : ∀ c ∈ text.toList, c ∈ ['0', '1', '2', '3', '4', '5', '6', '7', '8', '9',
    'a', 'b', 'c', 'd', 'e', 'f']
  bytes : Hex.decode text = .ok bs

theorem Hex.isLower_encode (bs : Bytes) : Hex.IsLower (Hex.encode bs) bs := by
  refine ⟨?_, Hex.decode_encode bs⟩
  have hdigit : ∀ n < 16, Hex.digit n ∈ ['0', '1', '2', '3', '4', '5', '6', '7', '8', '9',
      'a', 'b', 'c', 'd', 'e', 'f'] := by
    decide
  intro c hc
  rw [Hex.encode, String.toList_ofList, List.mem_flatMap] at hc
  obtain ⟨b, -, hc⟩ := hc
  have hb : b.toNat < 256 := b.toNat_lt
  simp only [Hex.encodeByte, List.mem_cons, List.not_mem_nil, or_false] at hc
  obtain rfl | rfl := hc
  · exact hdigit _ (by omega)
  · exact hdigit _ (by omega)

namespace DigestCheck

variable {σ : Type} {d : Hashing σ}

/-! ## One read after another -/

/-- Of the buffer only what was just read is digested. -/
theorem take_fillBuffer (buffer piece : Bytes) :
    (fillBuffer buffer piece).take piece.length = piece :=
  List.take_left

theorem after_snoc (d : Hashing σ) (reads : List ReadResult) (read : ReadResult) :
    after d (reads ++ [read]) = (after d reads).next d read := by
  rw [after, List.foldl_append]
  rfl

/-- Whatever is read later, reading has ended. -/
theorem after_append_of_ended {reads : List ReadResult} {result : Except IoFault String}
    (h : after d reads = .ended result) (later : List ReadResult) :
    after d (reads ++ later) = .ended result := by
  induction later using List.reverseRecOn with
  | nil => rw [List.append_nil, h]
  | append_singleton later read ih => rw [← List.append_assoc, after_snoc, ih, Turn.next]

/-- After any number of pieces the hasher has taken each of them, and nothing else. -/
theorem after_pieces (d : Hashing σ) {pieces : List Bytes} (hsome : ∀ p ∈ pieces, p ≠ []) :
    ∃ buffer, after d (pieces.map .ok) = .goesOn ⟨pieces.foldl d.update d.start, buffer⟩ := by
  induction pieces using List.reverseRecOn with
  | nil => exact ⟨_, rfl⟩
  | append_singleton pieces piece ih =>
    obtain ⟨buffer, hafter⟩ := ih fun p hp => hsome p (List.mem_append_left _ hp)
    have hpiece : piece ≠ [] := hsome piece (List.mem_append_right _ (List.mem_singleton.2 rfl))
    have hlength : piece.length ≠ 0 := fun h => hpiece (List.eq_nil_of_length_eq_zero h)
    refine ⟨fillBuffer buffer piece, ?_⟩
    rw [List.map_append, List.map_singleton, after_snoc, hafter, Turn.next, Progress.turn]
    simp only [if_neg hlength, take_fillBuffer, List.foldl_append, List.foldl_cons, List.foldl_nil]

/-- The end of a file is told by a read without bytes. -/
theorem after_whole (hd : d.IsCompositional) {pieces : List Bytes}
    (hsome : ∀ p ∈ pieces, p ≠ []) :
    after d (pieces.map .ok ++ [.ok []])
      = .ended (.ok (Hex.encode (d.digest pieces.flatten))) := by
  obtain ⟨buffer, hafter⟩ := after_pieces d hsome
  rw [after_snoc, hafter, hd.foldl_update hsome]
  rfl

/-- A read that fails ends it all. -/
theorem after_failed (d : Hashing σ) {pieces : List Bytes} (hsome : ∀ p ∈ pieces, p ≠ [])
    (fault : IoFault) : after d (pieces.map .ok ++ [.error fault]) = .ended (.error fault) := by
  obtain ⟨buffer, hafter⟩ := after_pieces d hsome
  rw [after_snoc, hafter]
  rfl

/-! ## Whatever the reads answer -/

/-- The first answers of all. -/
def firstOf {α : Type} (answers : Nat → α) (n : Nat) : List α :=
  (List.range n).map answers

/-- The reads of a content, one after another: each gives some of the bytes that come next,
    as many as it likes, and none once all of them were read. -/
structure Delivers (content : Bytes) (pieces : Nat → Bytes) : Prop where
  inOrder : ∀ n, (firstOf pieces n).flatten <+: content
  size : ∀ n, (pieces n).length ≤ readSize
  all : ∀ n, pieces n = [] → (firstOf pieces n).flatten = content

/-- Reading ends after finitely many reads, with a result. -/
def EndsWith (d : Hashing σ) (reads : Nat → ReadResult) (result : Except IoFault String) : Prop :=
  ∃ n, ∀ m ≥ n, after d (firstOf reads m) = .ended result

theorem firstOf_succ {α : Type} (answers : Nat → α) (n : Nat) :
    firstOf answers (n + 1) = firstOf answers n ++ [answers n] := by
  rw [firstOf, List.range_succ, List.map_append, List.map_singleton, firstOf]

theorem map_firstOf {α β : Type} (f : α → β) (answers : Nat → α) (n : Nat) :
    (firstOf answers n).map f = firstOf (fun i => f (answers i)) n :=
  List.map_map

theorem mem_firstOf {α : Type} {answers : Nat → α} {n : Nat} {a : α} (h : a ∈ firstOf answers n) :
    ∃ i < n, answers i = a := by
  obtain ⟨i, hi, rfl⟩ := List.mem_map.1 h
  exact ⟨i, List.mem_range.1 hi, rfl⟩

theorem EndsWith.of_after {reads : Nat → ReadResult} {result : Except IoFault String} {n : Nat}
    (h : after d (firstOf reads n) = .ended result) : EndsWith d reads result := by
  refine ⟨n, fun m hm => ?_⟩
  obtain ⟨k, rfl⟩ := Nat.exists_eq_add_of_le hm
  rw [firstOf, List.range_add, List.map_append]
  exact after_append_of_ended h _

theorem le_length_firstOf {pieces : Nat → Bytes} {n : Nat} (hsome : ∀ i < n, pieces i ≠ []) :
    n ≤ (firstOf pieces n).flatten.length := by
  induction n with
  | zero => exact Nat.zero_le _
  | succ n ih =>
    have hrest := ih fun i hi => hsome i (Nat.lt_succ_of_lt hi)
    have hlast := List.length_pos_iff.2 (hsome n (Nat.lt_succ_self n))
    rw [firstOf_succ, List.flatten_append, List.flatten_singleton, List.length_append]
    omega

/-- A content has an end: each read before it gives a byte of it at least. -/
theorem Delivers.exists_end {content : Bytes} {pieces : Nat → Bytes} (h : Delivers content pieces) :
    ∃ n, pieces n = [] ∧ ∀ i < n, pieces i ≠ [] := by
  have hend : ∃ n, pieces n = [] := by
    by_contra hnone
    have hmany : content.length + 1 ≤ (firstOf pieces (content.length + 1)).flatten.length :=
      le_length_firstOf fun i _ hi => hnone ⟨i, hi⟩
    have hfew := (h.inOrder (content.length + 1)).length_le
    omega
  classical
  exact ⟨Nat.find hend, Nat.find_spec hend, fun i hi => Nat.find_min hend hi⟩

theorem Delivers.endsWith (hd : d.IsCompositional) {content : Bytes} {pieces : Nat → Bytes}
    (h : Delivers content pieces) :
    EndsWith d (fun i => .ok (pieces i)) (.ok (Hex.encode (d.digest content))) := by
  obtain ⟨n, hend, hbefore⟩ := h.exists_end
  have hsome : ∀ p ∈ firstOf pieces n, p ≠ [] := by
    intro p hp
    obtain ⟨i, hi, rfl⟩ := mem_firstOf hp
    exact hbefore i hi
  have hafter := after_whole hd hsome
  rw [h.all n hend] at hafter
  apply EndsWith.of_after (n := n + 1)
  rwa [firstOf_succ, hend, ← map_firstOf]

theorem endsWith_error (d : Hashing σ) {reads : Nat → ReadResult} {n : Nat} {fault : IoFault}
    (hbefore : ∀ i < n, ∃ piece, piece ≠ [] ∧ reads i = .ok piece)
    (hfault : reads n = .error fault) : EndsWith d reads (.error fault) := by
  choose! pieces hsome hread using hbefore
  have hfirst : firstOf reads n = (firstOf pieces n).map .ok := by
    rw [map_firstOf]
    exact List.map_congr_left fun i hi => hread i (List.mem_range.1 hi)
  apply EndsWith.of_after (n := n + 1)
  rw [firstOf_succ, hfault, hfirst]
  refine after_failed d ?_ fault
  intro p hp
  obtain ⟨i, hi, rfl⟩ := mem_firstOf hp
  exact hsome i hi

/-! ## Files -/

/-- Reads that are as large as they can be give all of a content. -/
theorem exists_readsOf_eq {fuel : Nat} {content : Bytes} (hfuel : content.length < fuel) :
    ∃ pieces : List Bytes, (∀ p ∈ pieces, p ≠ []) ∧ pieces.flatten = content ∧
      readsOf fuel content = pieces.map .ok ++ [.ok []] := by
  induction fuel generalizing content with
  | zero => exact absurd hfuel (Nat.not_lt_zero _)
  | succ fuel ih =>
    cases content with
    | nil => exact ⟨[], List.forall_mem_nil _, rfl, rfl⟩
    | cons b bs =>
      have hrest : ((b :: bs).drop readSize).length < fuel := by
        rw [List.length_drop]
        simp only [List.length_cons, readSize] at hfuel ⊢
        omega
      obtain ⟨pieces, hsome, hcontent, hreads⟩ := ih hrest
      refine ⟨(b :: bs).take readSize :: pieces, ?_, ?_, ?_⟩
      · rw [List.forall_mem_cons]
        exact ⟨List.cons_ne_nil _ _, hsome⟩
      · rw [List.flatten_cons, hcontent, List.take_append_drop]
      · rw [readsOf, hreads]
        · rfl
        · exact List.cons_ne_nil b bs

theorem ofFile_of_ok (hd : d.IsCompositional) {storage : Storage} {path : String} {content : Bytes}
    (h : storage.read path = .ok content) :
    ofFile d storage path = .ok (Hex.encode (d.digest content)) := by
  obtain ⟨pieces, hsome, hcontent, hreads⟩ := exists_readsOf_eq (Nat.lt_succ_self content.length)
  have hafter := after_whole hd hsome
  simp only [ofFile, reads, h, ofReads, hreads, hafter, hcontent]

theorem ofFile_of_error (d : Hashing σ) {storage : Storage} {path : String} {fault : IoFault}
    (h : storage.read path = .error fault) : ofFile d storage path = .error fault := by
  simp only [ofFile, reads, h, ofReads]
  rfl

/-- Reading ends with the digest of all of a content, in lower case hexadecimal digits, in
    whichever pieces the content is read; and if a read fails, it ends with the fault.  So
    it is with the files of a storage. -/
theorem whole_file_digested (d : Hashing σ) (hd : d.IsCompositional) :
    (∀ content, Hex.IsLower (Hex.encode (d.digest content)) (d.digest content) ∧
      (∀ pieces, Delivers content pieces →
        EndsWith d (fun i => .ok (pieces i)) (.ok (Hex.encode (d.digest content)))) ∧
      ∀ storage path, storage.read path = .ok content →
        ofFile d storage path = .ok (Hex.encode (d.digest content))) ∧
    (∀ (reads : Nat → ReadResult) n fault,
      (∀ i < n, ∃ piece, piece ≠ [] ∧ reads i = .ok piece) → reads n = .error fault →
        EndsWith d reads (.error fault)) ∧
    ∀ storage path fault, storage.read path = .error fault →
      ofFile d storage path = .error fault := by
  refine ⟨?_, ?_, ?_⟩
  · intro content
    refine ⟨Hex.isLower_encode _, ?_, ?_⟩
    · intro pieces h
      exact h.endsWith hd
    · intro storage path h
      exact ofFile_of_ok hd h
  · intro reads n fault hbefore hfault
    exact endsWith_error d hbefore hfault
  · intro storage path fault h
    exact ofFile_of_error d h

/-! ## A file in two pieces -/

/-- A content may be cut in any way. -/
theorem delivers_of_pieces {pieces : List Bytes} (hsome : ∀ p ∈ pieces, p ≠ [])
    (hsize : ∀ p ∈ pieces, p.length ≤ readSize) :
    Delivers pieces.flatten (fun i => pieces[i]?.getD []) := by
  have hfirst : ∀ n, (firstOf (fun i => pieces[i]?.getD []) n).flatten
      = (pieces.take n).flatten := by
    intro n
    induction n with
    | zero => rfl
    | succ n ih =>
      rw [firstOf_succ, List.flatten_append, ih, List.take_add_one, List.flatten_append]
      cases pieces[n]? <;> rfl
  refine ⟨?_, ?_, ?_⟩
  · intro n
    rw [hfirst]
    refine ⟨(pieces.drop n).flatten, ?_⟩
    rw [← List.flatten_append, List.take_append_drop]
  · intro n
    cases hn : pieces[n]? with
    | none => exact Nat.zero_le _
    | some p => exact hsize p (List.mem_of_getElem? hn)
  · intro n hnone
    rw [hfirst]
    cases hn : pieces[n]? with
    | none => rw [List.take_of_length_le (List.getElem?_eq_none_iff.1 hn)]
    | some p =>
      rw [hn] at hnone
      exact absurd hnone (hsome p (List.mem_of_getElem? hn))

/-- "hello " and "world". -/
def twoPieces : List Bytes :=
  [[104, 101, 108, 108, 111, 32], [119, 111, 114, 108, 100]]

/-- The file that comes in these pieces has the digest of "hello world", and has none if the
    second one cannot be read. -/
theorem hello_world_digested :
    EndsWith Md5.digest.hashing (fun i => .ok (twoPieces[i]?.getD []))
      (.ok "5eb63bbbe01eeed093cb22bb8f5acdc3") ∧
    EndsWith Md5.digest.hashing (fun i => if i = 0 then .ok [104] else .error .isADirectory)
      (.error .isADirectory) ∧
    md5 { known := [("f", .file twoPieces.flatten)] } "f"
      = .ok "5eb63bbbe01eeed093cb22bb8f5acdc3" ∧
    md5 { known := [("d", .directory)] } "d" = .error .isADirectory := by
  obtain ⟨hwhole, hfailed, hfault⟩ :=
    whole_file_digested Md5.digest.hashing Md5.digest.hashing_isCompositional
  obtain ⟨-, hpieces, hfile⟩ := hwhole twoPieces.flatten
  have hdigest : Hex.encode (Md5.digest.hashing.digest twoPieces.flatten)
      = "5eb63bbbe01eeed093cb22bb8f5acdc3" := by
    decide +kernel
  rw [hdigest] at hpieces hfile
  refine ⟨hpieces _ (delivers_of_pieces (by decide) (by decide)), ?_, hfile _ _ rfl, ?_⟩
  · refine hfailed _ 1 .isADirectory ?_ rfl
    intro i hi
    obtain rfl : i = 0 := Nat.lt_one_iff.1 hi
    exact ⟨[104], List.cons_ne_nil _ _, rfl⟩
  · exact hfault _ _ .isADirectory rfl

end DigestCheck
end PluginHost
