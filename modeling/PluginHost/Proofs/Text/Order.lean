/-
  PluginHost.Proofs.Text.Order

  The order of texts is the order of their bytes.  Texts are compared character by
  character, and whoever compares the bytes that stand for them comes to the same
  (`encode_lt_encode_iff`).  For two characters this is seen at the first byte, if they
  have different numbers of bytes, since its range tells that number
  (`exists_cons_encodeChar`); otherwise the bits are compared six by six.
-/
import PluginHost.Proofs.Text.Utf8

namespace PluginHost
namespace Utf8

/-! ## The bytes of a character -/

theorem encodeChar_two {c : Char} (hlow : 0x80 ≤ c.toNat) (hhigh : c.toNat < 0x800) :
    encodeChar c = [(0xC0 + c.toNat / 64).toUInt8, (0x80 + c.toNat % 64).toUInt8] := by
  have hone : ¬ c.toNat < 0x80 := by omega
  simp only [encodeChar, if_neg hone, if_pos hhigh]

theorem encodeChar_three {c : Char} (hlow : 0x800 ≤ c.toNat) (hhigh : c.toNat < 0x10000) :
    encodeChar c = [(0xE0 + c.toNat / 4096).toUInt8, (0x80 + c.toNat / 64 % 64).toUInt8,
      (0x80 + c.toNat % 64).toUInt8] := by
  have hone : ¬ c.toNat < 0x80 := by omega
  have htwo : ¬ c.toNat < 0x800 := by omega
  simp only [encodeChar, if_neg hone, if_neg htwo, if_pos hhigh]

theorem encodeChar_four {c : Char} (hlow : 0x10000 ≤ c.toNat) :
    encodeChar c = [(0xF0 + c.toNat / 262144).toUInt8, (0x80 + c.toNat / 4096 % 64).toUInt8,
      (0x80 + c.toNat / 64 % 64).toUInt8, (0x80 + c.toNat % 64).toUInt8] := by
  have hone : ¬ c.toNat < 0x80 := by omega
  have htwo : ¬ c.toNat < 0x800 := by omega
  have hthree : ¬ c.toNat < 0x10000 := by omega
  simp only [encodeChar, if_neg hone, if_neg htwo, if_neg hthree]

theorem toNat_lt (c : Char) : c.toNat < 0x110000 := by
  have hvalid : c.toNat < 0xD800 ∨ 0xDFFF < c.toNat ∧ c.toNat < 0x110000 := c.valid
  omega

/-- The first byte of a character is below those of all characters with more bytes. -/
theorem exists_cons_encodeChar (c : Char) : ∃ b bs, encodeChar c = b.toUInt8 :: bs ∧ b < 256 ∧
    (c.toNat < 0x80 → b < 0xC0) ∧ (c.toNat < 0x800 → b < 0xE0) ∧
    (c.toNat < 0x10000 → b < 0xF0) := by
  have hlimit := toNat_lt c
  by_cases hone : c.toNat < 0x80
  · exact ⟨_, _, encodeChar_of_lt hone, by omega, by omega, by omega, by omega⟩
  by_cases htwo : c.toNat < 0x800
  · exact ⟨_, _, encodeChar_two (by omega) htwo, by omega, by omega, by omega, by omega⟩
  by_cases hthree : c.toNat < 0x10000
  · exact ⟨_, _, encodeChar_three (by omega) hthree, by omega, by omega, by omega, by omega⟩
  · exact ⟨_, _, encodeChar_four (by omega), by omega, by omega, by omega, by omega⟩

/-! ## Comparing -/

/-- Bytes are compared as the numbers that they are. -/
theorem toUInt8_cons_lt_iff {m n : Nat} (hm : m < 256) (hn : n < 256) {xs ys : Bytes} :
    m.toUInt8 :: xs < n.toUInt8 :: ys ↔ m < n ∨ m = n ∧ xs < ys := by
  have heq : m.toUInt8 = n.toUInt8 ↔ m = n := by
    constructor
    · intro h
      rw [← toNat_toUInt8 hm, h, toNat_toUInt8 hn]
    · intro h
      rw [h]
  rw [List.cons_lt_cons_iff, UInt8.lt_iff_toNat_lt, toNat_toUInt8 hm, toNat_toUInt8 hn, heq]

/-- Six bits after the others. -/
theorem continuation_lt_iff {m n : Nat} {xs ys : Bytes} :
    (0x80 + m % 64).toUInt8 :: xs < (0x80 + n % 64).toUInt8 :: ys ↔
      m % 64 < n % 64 ∨ m % 64 = n % 64 ∧ xs < ys := by
  rw [toUInt8_cons_lt_iff (by omega) (by omega)]
  simp only [Nat.add_lt_add_iff_left, Nat.add_left_cancel_iff]

/-- The bytes of the smaller one of two characters are smaller, whatever follows. -/
theorem encodeChar_append_lt {c d : Char} (h : c < d) (xs ys : Bytes) :
    encodeChar c ++ xs < encodeChar d ++ ys := by
  have hlt : c.toNat < d.toNat := h
  have hlimit := toNat_lt d
  obtain ⟨b, bs, hc, hb, hone, htwo, hthree⟩ := exists_cons_encodeChar c
  -- By the number of bytes of the larger one; the other has fewer, or as many.
  by_cases hd₁ : d.toNat < 0x80
  · rw [encodeChar_of_lt (show c.toNat < 0x80 by omega), encodeChar_of_lt hd₁]
    exact (toUInt8_cons_lt_iff (by omega) (by omega)).2 (.inl hlt)
  by_cases hd₂ : d.toNat < 0x800
  · rw [encodeChar_two (c := d) (by omega) hd₂]
    by_cases hc₁ : c.toNat < 0x80
    · have hfirst := hone hc₁
      rw [hc]
      exact (toUInt8_cons_lt_iff hb (by omega)).2 (.inl (by omega))
    · rw [encodeChar_two (by omega) (by omega)]
      simp only [List.cons_append]
      rw [toUInt8_cons_lt_iff (by omega) (by omega)]
      simp only [continuation_lt_iff]
      omega
  by_cases hd₃ : d.toNat < 0x10000
  · rw [encodeChar_three (c := d) (by omega) hd₃]
    by_cases hc₂ : c.toNat < 0x800
    · have hfirst := htwo hc₂
      rw [hc]
      exact (toUInt8_cons_lt_iff hb (by omega)).2 (.inl (by omega))
    · rw [encodeChar_three (by omega) (by omega)]
      simp only [List.cons_append]
      rw [toUInt8_cons_lt_iff (by omega) (by omega)]
      simp only [continuation_lt_iff]
      omega
  · rw [encodeChar_four (c := d) (by omega)]
    by_cases hc₃ : c.toNat < 0x10000
    · have hfirst := hthree hc₃
      rw [hc]
      exact (toUInt8_cons_lt_iff hb (by omega)).2 (.inl (by omega))
    · rw [encodeChar_four (by omega)]
      simp only [List.cons_append]
      rw [toUInt8_cons_lt_iff (by omega) (by omega)]
      simp only [continuation_lt_iff]
      omega

theorem flatMap_encodeChar_lt {cs ds : List Char} (h : cs < ds) :
    cs.flatMap encodeChar < ds.flatMap encodeChar := by
  induction cs generalizing ds with
  | nil =>
    cases ds with
    | nil => exact absurd h (List.not_lt_nil _)
    | cons d ds =>
      obtain ⟨b, bs, hd, -⟩ := exists_cons_encodeChar d
      rw [List.flatMap_cons, hd]
      exact List.nil_lt_cons _ _
  | cons c cs ih =>
    cases ds with
    | nil => exact absurd h (List.not_lt_nil _)
    | cons d ds =>
      rw [List.flatMap_cons, List.flatMap_cons]
      rcases List.cons_lt_cons_iff.1 h with hlt | ⟨rfl, hrest⟩
      · exact encodeChar_append_lt hlt _ _
      · exact List.append_left_lt (ih hrest)

/-- The order of texts is that of their bytes. -/
theorem encode_lt_encode_iff {s t : String} : encode s < encode t ↔ s < t := by
  have hlt {s t : String} (h : s < t) : encode s < encode t := by
    have hlist : s.toList < t.toList := h
    exact flatMap_encodeChar_lt hlist
  refine ⟨fun h => ?_, hlt⟩
  rcases Std.lt_trichotomy s t with hst | rfl | hts
  · exact hst
  · exact absurd h (List.lt_irrefl _)
  · exact absurd h (List.lt_asymm (hlt hts))

end Utf8
end PluginHost
