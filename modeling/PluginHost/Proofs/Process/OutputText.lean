/-
  PluginHost.Proofs.Process.OutputText

  The text of a buffer that has dropped its oldest bytes.  The buffer counts bytes and
  its reader characters, so that the cut may fall into a character.  What is left of that
  one are bytes that start no character (`isContinuation_of_encodeChar_eq`): each of them
  is read as one U+FFFD, and the reader stands between characters again (`step_stray`).
  All characters behind it are read as they were written (`torn_once`).
-/
import PluginHost.Proofs.Process.OutputTail
import PluginHost.Proofs.Text.Order

namespace PluginHost
namespace Utf8

/-! ## Bytes that start no character -/

theorem isContinuation_toUInt8 {m : Nat} (hm : m < 64) :
    isContinuation (0x80 + m).toUInt8 = true := by
  have hb : (0x80 + m).toUInt8.toNat = 0x80 + m := toNat_toUInt8 (by omega)
  simp only [isContinuation, Bool.and_eq_true, decide_eq_true_eq, UInt8.le_iff_toNat_le,
    UInt8.lt_iff_toNat_lt, hb]
  exact ⟨by simp, by simp; omega⟩

/-- Every byte of a character but the first one continues it. -/
theorem exists_lead_encodeChar (c : Char) : ∃ lead rest, encodeChar c = lead :: rest ∧
    rest.length ≤ 3 ∧ ∀ b ∈ rest, isContinuation b = true := by
  -- The bits of the other bytes come six by six.
  have hlast := isContinuation_toUInt8 (show c.toNat % 64 < 64 by omega)
  have hnext := isContinuation_toUInt8 (show c.toNat / 64 % 64 < 64 by omega)
  have hthird := isContinuation_toUInt8 (show c.toNat / 4096 % 64 < 64 by omega)
  by_cases hone : c.toNat < 0x80
  · exact ⟨_, [], encodeChar_of_lt hone, by simp, by simp⟩
  by_cases htwo : c.toNat < 0x800
  · refine ⟨_, _, encodeChar_two (by omega) htwo, by simp, ?_⟩
    exact List.forall_mem_singleton.2 hlast
  by_cases hthree : c.toNat < 0x10000
  · refine ⟨_, _, encodeChar_three (by omega) hthree, by simp, ?_⟩
    exact List.forall_mem_cons.2 ⟨hnext, List.forall_mem_singleton.2 hlast⟩
  · refine ⟨_, _, encodeChar_four (by omega), by simp, ?_⟩
    exact List.forall_mem_cons.2
      ⟨hthird, List.forall_mem_cons.2 ⟨hnext, List.forall_mem_singleton.2 hlast⟩⟩

/-- So does all that is left of a character that has lost some of its first bytes. -/
theorem isContinuation_of_encodeChar_eq {c : Char} {first torn : Bytes} (hfirst : first ≠ [])
    (h : encodeChar c = first ++ torn) :
    torn.length ≤ 3 ∧ ∀ b ∈ torn, isContinuation b = true := by
  obtain ⟨lead, rest, hc, hlength, hrest⟩ := exists_lead_encodeChar c
  obtain ⟨b, first, rfl⟩ := List.exists_cons_of_ne_nil hfirst
  rw [hc, List.cons_append] at h
  obtain ⟨-, rfl⟩ := List.cons.inj h
  refine ⟨?_, ?_⟩
  · rw [List.length_append] at hlength
    omega
  · intro b hb
    exact hrest b (List.mem_append_right first hb)

theorem ofByte?_of_isContinuation {b : UInt8} (h : isContinuation b = true) :
    Lead.ofByte? b = none := by
  simp only [isContinuation, Bool.and_eq_true, decide_eq_true_eq] at h
  unfold Lead.ofByte?
  grind

/-- A byte that continues nothing is a part of its own, and is no character. -/
theorem step_stray {read : List Part} {b : UInt8} (h : isContinuation b = true) :
    Reading.step ⟨read, .between⟩ b = ⟨none :: read, .between⟩ := by
  have hb : ¬ b < 0x80 := by
    simp only [isContinuation, Bool.and_eq_true, decide_eq_true_eq] at h
    exact UInt8.not_lt.2 h.1
  simp [Reading.step, State.feed, State.feedFresh, hb, ofByte?_of_isContinuation h]

theorem foldl_step_stray (read : List Part) {torn : Bytes}
    (h : ∀ b ∈ torn, isContinuation b = true) :
    torn.foldl Reading.step ⟨read, .between⟩
      = ⟨List.replicate torn.length none ++ read, .between⟩ := by
  induction torn generalizing read with
  | nil => rfl
  | cons b torn ih =>
    obtain ⟨hb, htorn⟩ := List.forall_mem_cons.1 h
    rw [List.foldl_cons, step_stray hb, ih (none :: read) htorn, List.length_cons,
      List.replicate_succ', List.append_assoc]
    rfl

/-- Characters are read as they are behind bytes that start none. -/
theorem parts_stray_append {torn : Bytes} (h : ∀ b ∈ torn, isContinuation b = true)
    (kept : List Char) :
    parts (torn ++ kept.flatMap encodeChar)
      = List.replicate torn.length none ++ kept.map some := by
  have hread : (torn ++ kept.flatMap encodeChar).foldl Reading.step {}
      = ⟨(kept.map some).reverse ++ List.replicate torn.length none, .between⟩ := by
    rw [List.foldl_append]
    have htorn := foldl_step_stray [] h
    rw [List.append_nil] at htorn
    rw [htorn, foldl_step_flatMap_encodeChar]
  rw [parts]
  simp only [hread, State.finish, List.reverse_nil, List.nil_append, List.reverse_append,
    List.reverse_reverse, List.reverse_replicate]

theorem decodeLossy_stray_append {torn : Bytes} (h : ∀ b ∈ torn, isContinuation b = true)
    (kept : List Char) :
    decodeLossy (torn ++ kept.flatMap encodeChar)
      = String.ofList (List.replicate torn.length replacement ++ kept) := by
  rw [decodeLossy, parts_stray_append h, List.map_append, List.map_replicate, List.map_map]
  have hsame : (fun part : Part => part.getD replacement) ∘ some = id := rfl
  rw [hsame, List.map_id]
  rfl

end Utf8

namespace OutputTail

/-! ## Cuts -/

/-- How a cut divides characters, of whose bytes some are left: the last of the lost ones
    may have some of its own among them, but not its first one. -/
structure Cut (chars : List Char) (bytes : Bytes) (lost : List Char) (torn : Bytes)
    (kept : List Char) : Prop where
  chars_eq : chars = lost ++ kept
  bytes_eq : bytes = torn ++ kept.flatMap Utf8.encodeChar
  torn : torn = [] ∨ ∃ before c first, lost = before ++ [c] ∧ first ≠ [] ∧
    Utf8.encodeChar c = first ++ torn

variable {chars lost kept : List Char} {bytes torn : Bytes}

/-- However many bytes are dropped, they divide the characters. -/
theorem exists_cut (chars : List Char) (n : Nat) :
    ∃ lost torn kept, Cut chars ((chars.flatMap Utf8.encodeChar).drop n) lost torn kept := by
  induction chars generalizing n with
  | nil => exact ⟨[], [], [], rfl, by simp, .inl rfl⟩
  | cons c chars ih =>
    by_cases hzero : n = 0
    · -- The cut comes before the character.
      refine ⟨[], [], c :: chars, rfl, ?_, .inl rfl⟩
      rw [hzero, List.drop_zero, List.nil_append]
    by_cases hinside : n < (Utf8.encodeChar c).length
    · -- It falls into the character, or between two of its bytes.
      refine ⟨[c], (Utf8.encodeChar c).drop n, chars, rfl, ?_, ?_⟩
      · rw [List.flatMap_cons, List.drop_append_of_le_length hinside.le]
      · refine .inr ⟨[], c, (Utf8.encodeChar c).take n, rfl, ?_, (List.take_append_drop n _).symm⟩
        rw [← List.length_pos_iff, List.length_take]
        omega
    · -- The character is lost, and the cut comes later.
      obtain ⟨lost, torn, kept, hcut⟩ := ih (n - (Utf8.encodeChar c).length)
      refine ⟨c :: lost, torn, kept, ?_, ?_, ?_⟩
      · rw [hcut.chars_eq, List.cons_append]
      · rw [List.flatMap_cons, List.drop_append, List.drop_of_length_le (by omega),
          List.nil_append]
        exact hcut.bytes_eq
      · obtain hnone | ⟨before, d, first, rfl, hfirst, hd⟩ := hcut.torn
        · exact .inl hnone
        · exact .inr ⟨c :: before, d, first, rfl, hfirst, hd⟩

theorem Cut.stray (h : Cut chars bytes lost torn kept) :
    torn.length ≤ 3 ∧ ∀ b ∈ torn, Utf8.isContinuation b = true := by
  obtain rfl | ⟨before, c, first, -, hfirst, hc⟩ := h.torn
  · simp
  · exact Utf8.isContinuation_of_encodeChar_eq hfirst hc

/-- However a text is written, and through whichever clones: what a clone shows of it is the
    end of the text, and before that one U+FFFD for each byte that is left of the one
    character that the cut falls into.  There are three of them at most, and none if the
    cut falls between characters.  A text within the limit is shown as it is. -/
theorem torn_once {limit : Nat} {acts : List Act} {x : Shared} (hrun : Run (.fresh limit) acts x)
    {s : String} (hs : writtenIn acts = Utf8.encode s) {i : Nat} {t : OutputTail}
    (hi : x.view? i = some t) :
    (∃ lost torn kept, Cut s.toList t.bytes lost torn kept ∧ torn.length ≤ 3 ∧
      t.toText = String.ofList (List.replicate torn.length '\uFFFD' ++ kept)) ∧
    ((Utf8.encode s).length ≤ limit → t.toText = s) := by
  have hkeeps := hrun.inv.view hi
  rw [hs, keeps_iff] at hkeeps
  subst hkeeps
  constructor
  · obtain ⟨lost, torn, kept, hcut⟩ := exists_cut s.toList ((Utf8.encode s).length - limit)
    obtain ⟨hlength, hstray⟩ := hcut.stray
    refine ⟨lost, torn, kept, hcut, hlength, ?_⟩
    have hbytes : keepLast limit (Utf8.encode s) = torn ++ kept.flatMap Utf8.encodeChar :=
      hcut.bytes_eq
    rw [toText, hbytes, Utf8.decodeLossy_stray_append hstray]
    rfl
  · intro hfits
    have hall : keepLast limit (Utf8.encode s) = Utf8.encode s := by
      rw [keepLast, Nat.sub_eq_zero_of_le hfits, List.drop_zero]
    rw [toText, hall, Utf8.decodeLossy_encode]

/-! ## A torn character -/

/-- Two characters, of three bytes and of two, the first one written in two parts. -/
def partWrites : List Act :=
  [.write 0 [0xE2, 0x82], .write 0 [0xAC, 0xC3, 0xA9]]

theorem run_partWrites : ∃ x, Run (.fresh 4) partWrites x ∧
    x.view? 0 = some { limit := 4, bytes := [0x82, 0xAC, 0xC3, 0xA9] } := by
  have hfirst : Run (.fresh 4) [.write 0 [0xE2, 0x82]] { bytes := [0xE2, 0x82], limits := [4] } :=
    Run.nil.snoc (@Moves.write _ 0 { limit := 4 } rfl [0xE2, 0x82])
  exact ⟨_, hfirst.snoc (@Moves.write _ 0 _ rfl [0xAC, 0xC3, 0xA9]), rfl⟩

/-- The limit leaves two bytes of the first character, which are shown as two U+FFFD. -/
theorem euro_sign_torn : ∃ x t, Run (.fresh 4) partWrites x ∧
    writtenIn partWrites = Utf8.encode "€é" ∧ x.view? 0 = some t ∧
    t.toText = "\uFFFD\uFFFDé" ∧ ∃ lost torn kept, Cut "€é".toList t.bytes lost torn kept ∧
      torn.length ≤ 3 ∧ t.toText = String.ofList (List.replicate torn.length '\uFFFD' ++ kept) := by
  obtain ⟨x, hrun, hview⟩ := run_partWrites
  have hwritten : writtenIn partWrites = Utf8.encode "€é" := by decide
  exact ⟨x, _, hrun, hwritten, hview, by decide, (torn_once hrun hwritten hview).1⟩

end OutputTail
end PluginHost
