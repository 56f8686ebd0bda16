/-
  PluginHost.Proofs.Text.Utf8

  What is written as bytes is read again.  A reader that stands between characters
  and is fed the bytes of a character has read that character and stands between
  characters again (`foldl_step_encodeChar`), so that the parts of an encoded text
  are its characters, and nothing else.
-/
import Mathlib.Tactic.IntervalCases
import PluginHost.Json.Reader

namespace PluginHost
namespace Utf8

theorem toNat_toUInt8 {n : Nat} (h : n < 256) : n.toUInt8.toNat = n := by
  simp [Nat.toUInt8, UInt8.toNat_ofNat', Nat.mod_eq_of_lt h]

/-! ## First bytes -/

theorem ofByte?_two {k : Nat} (hlow : 2 ≤ k) (hhigh : k < 32) :
    Lead.ofByte? (0xC0 + k).toUInt8 = some ⟨1, k, 0x80, 0xBF⟩ := by
  interval_cases k <;> rfl

/-- The first of three bytes admits every second one, but no overlong form and no
    surrogate. -/
theorem ofByte?_three {k m : Nat} (hk : k < 16) (hm : m < 64) (hshort : k = 0 → 32 ≤ m)
    (hsurrogate : k = 13 → m < 32) :
    ∃ low high, Lead.ofByte? (0xE0 + k).toUInt8 = some ⟨2, k, low, high⟩ ∧
      low.toNat ≤ 0x80 + m ∧ 0x80 + m ≤ high.toNat := by
  interval_cases k <;> refine ⟨_, _, rfl, ?_, ?_⟩ <;> simp <;> omega

/-- The first of four bytes admits every second one, but no overlong form and nothing
    above U+10FFFF. -/
theorem ofByte?_four {k m : Nat} (hk : k < 5) (hm : m < 64) (hshort : k = 0 → 16 ≤ m)
    (hlast : k = 4 → m < 16) :
    ∃ low high, Lead.ofByte? (0xF0 + k).toUInt8 = some ⟨3, k, low, high⟩ ∧
      low.toNat ≤ 0x80 + m ∧ 0x80 + m ≤ high.toNat := by
  interval_cases k <;> refine ⟨_, _, rfl, ?_, ?_⟩ <;> simp <;> omega

/-! ## One byte more -/

theorem step_ascii {read : List Part} {n : Nat} (h : n < 0x80) :
    Reading.step ⟨read, .between⟩ n.toUInt8 = ⟨some (Char.ofNat n) :: read, .between⟩ := by
  have hn : n.toUInt8.toNat = n := toNat_toUInt8 (by omega)
  have hlt : n.toUInt8 < 0x80 := by
    rw [UInt8.lt_iff_toNat_lt, hn]
    exact h
  simp [Reading.step, State.feed, State.feedFresh, hlt, hn]

theorem step_lead {read : List Part} {b : UInt8} {follow bits : Nat} {low high : UInt8}
    (h : Lead.ofByte? b = some ⟨follow, bits, low, high⟩) :
    Reading.step ⟨read, .between⟩ b = ⟨read, .inside follow bits low high⟩ := by
  have hb : ¬ b < 0x80 := by
    intro hlt
    revert h
    unfold Lead.ofByte?
    grind
  simp [Reading.step, State.feed, State.feedFresh, hb, h]

/-- A byte in the range that is promised gives six bits more. -/
theorem step_inside {read : List Part} {left bits m : Nat} {low high : UInt8} (hm : m < 64)
    (hlow : low.toNat ≤ 0x80 + m) (hhigh : 0x80 + m ≤ high.toNat) :
    Reading.step ⟨read, .inside left bits low high⟩ (0x80 + m).toUInt8 =
      if left ≤ 1 then ⟨some (Char.ofNat (bits * 64 + m)) :: read, .between⟩
      else ⟨read, .inside (left - 1) (bits * 64 + m) 0x80 0xBF⟩ := by
  have hb : (0x80 + m).toUInt8.toNat = 0x80 + m := toNat_toUInt8 (by omega)
  have hin : (decide (low ≤ (0x80 + m).toUInt8) && decide ((0x80 + m).toUInt8 ≤ high)) = true := by
    simp only [Bool.and_eq_true, decide_eq_true_eq, UInt8.le_iff_toNat_le, hb]
    exact ⟨hlow, hhigh⟩
  rw [Reading.step, State.feed]
  simp only [hin, if_true, hb, Nat.add_sub_cancel_left]
  by_cases hleft : left ≤ 1 <;> simp [hleft]

/-- So does every byte after the second one. -/
theorem step_tail {read : List Part} {left bits m : Nat} (hm : m < 64) :
    Reading.step ⟨read, .inside left bits 0x80 0xBF⟩ (0x80 + m).toUInt8 =
      if left ≤ 1 then ⟨some (Char.ofNat (bits * 64 + m)) :: read, .between⟩
      else ⟨read, .inside (left - 1) (bits * 64 + m) 0x80 0xBF⟩ :=
  step_inside hm (by simp) (by simp; omega)

/-! ## Whole characters -/

/-- The bytes of a character are read as that character. -/
theorem foldl_step_encodeChar (read : List Part) (c : Char) :
    (encodeChar c).foldl Reading.step ⟨read, .between⟩ = ⟨some c :: read, .between⟩ := by
  have hvalid : c.toNat < 0xD800 ∨ 0xDFFF < c.toNat ∧ c.toNat < 0x110000 := c.valid
  have hc : Char.ofNat c.toNat = c := Char.ofNat_toNat c
  generalize hn : c.toNat = n at hvalid hc
  have hlast : n % 64 < 64 := Nat.mod_lt _ (by decide)
  have hnext : n / 64 % 64 < 64 := Nat.mod_lt _ (by decide)
  rw [encodeChar, hn]
  split
  · rename_i hone
    rw [List.foldl_cons, List.foldl_nil, step_ascii hone, hc]
  split
  · have hbits : n / 64 * 64 + n % 64 = n := by omega
    have hlead := ofByte?_two (k := n / 64) (by omega) (by omega)
    rw [List.foldl_cons, step_lead hlead, List.foldl_cons, step_tail hlast, if_pos (by decide),
      hbits, hc, List.foldl_nil]
  split
  · have hbits : (n / 4096 * 64 + n / 64 % 64) * 64 + n % 64 = n := by omega
    obtain ⟨low, high, hlead, hlow, hhigh⟩ :=
      ofByte?_three (k := n / 4096) (by omega) hnext (by omega) (by omega)
    rw [List.foldl_cons, step_lead hlead, List.foldl_cons, step_inside hnext hlow hhigh,
      if_neg (by decide), List.foldl_cons, step_tail hlast, if_pos (by decide), hbits, hc,
      List.foldl_nil]
  · have hbits : ((n / 262144 * 64 + n / 4096 % 64) * 64 + n / 64 % 64) * 64 + n % 64 = n := by
      omega
    obtain ⟨low, high, hlead, hlow, hhigh⟩ :=
      ofByte?_four (k := n / 262144) (m := n / 4096 % 64) (by omega) (by omega) (by omega)
        (by omega)
    rw [List.foldl_cons, step_lead hlead, List.foldl_cons, step_inside (by omega) hlow hhigh,
      if_neg (by decide), List.foldl_cons, step_tail hnext, if_neg (by decide), List.foldl_cons,
      step_tail hlast, if_pos (by decide), hbits, hc, List.foldl_nil]

/-! ## Texts -/

/-- The bytes of characters are read as those characters, whatever was read before. -/
theorem foldl_step_flatMap_encodeChar (read : List Part) (cs : List Char) :
    (cs.flatMap encodeChar).foldl Reading.step ⟨read, .between⟩
      = ⟨(cs.map some).reverse ++ read, .between⟩ := by
  induction cs generalizing read with
  | nil => rfl
  | cons c cs ih =>
    rw [List.flatMap_cons, List.foldl_append, foldl_step_encodeChar, ih]
    simp

/-- The parts of an encoded text are its characters. -/
theorem parts_encode (s : String) : parts (encode s) = s.toList.map some := by
  have hread := foldl_step_flatMap_encodeChar [] s.toList
  rw [parts, encode]
  simp only [hread, State.finish, List.reverse_nil, List.nil_append, List.append_nil,
    List.reverse_reverse]

/-- An encoded text is read as that text, also by readers that take what is no text. -/
theorem decodeLossy_encode (s : String) : decodeLossy (encode s) = s := by
  simp [decodeLossy, parts_encode]

/-- An ASCII character is one byte. -/
theorem encodeChar_of_lt {c : Char} (h : c.toNat < 0x80) : encodeChar c = [c.toNat.toUInt8] := by
  rw [encodeChar]
  simp [h]

/-- Any other character has a byte that is no ASCII character. -/
theorem exists_le_of_mem_encodeChar {c : Char} (h : 0x80 ≤ c.toNat) :
    ∃ b ∈ encodeChar c, 0x80 ≤ b.toNat := by
  have hvalid : c.toNat < 0xD800 ∨ 0xDFFF < c.toNat ∧ c.toNat < 0x110000 := c.valid
  rw [encodeChar]
  simp only [Nat.not_lt.2 h, if_false]
  -- The first byte will do, however many there are.
  split
  · exact ⟨_, List.mem_cons_self, by rw [toNat_toUInt8 (by omega)]; omega⟩
  split
  · exact ⟨_, List.mem_cons_self, by rw [toNat_toUInt8 (by omega)]; omega⟩
  · exact ⟨_, List.mem_cons_self, by rw [toNat_toUInt8 (by omega)]; omega⟩

end Utf8

theorem Json.textOfBytes_encode (s : String) : Json.textOfBytes (Utf8.encode s) = s := by
  have hchars : s.toList.flatMap (fun c => [c]) = s.toList := List.flatMap_singleton' _
  rw [Json.textOfBytes, Utf8.parts_encode, List.flatMap_map]
  simp only [hchars, String.ofList_toList]

end PluginHost
