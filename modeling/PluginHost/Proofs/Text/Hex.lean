/-
  PluginHost.Proofs.Text.Hex

  Hexadecimal text.  What is written is read again (`decode_encode`), and what can be
  read is exactly what consists of pairs of digits (`exists_decode_iff`).  Reading goes
  by bytes, so the second statement has to see that a character of more than one byte
  holds no digit.
-/
import PluginHost.Proofs.Text.Utf8
import PluginHost.Text.Hex

namespace PluginHost
namespace Hex

/-! ## Digits -/

/-- A digit of either case. -/
def IsDigit (c : Char) : Prop :=
  '0' ≤ c ∧ c ≤ '9' ∨ 'a' ≤ c ∧ c ≤ 'f' ∨ 'A' ≤ c ∧ c ≤ 'F'

instance (c : Char) : Decidable (IsDigit c) :=
  inferInstanceAs (Decidable (_ ∨ _ ∨ _))

theorem value?_isSome_iff {c : Char} : (value? c).isSome = true ↔ IsDigit c := by
  unfold value? IsDigit
  split
  · simp [*]
  split
  · simp [*]
  split <;> simp [*]

theorem bounds_of_isDigit {c : Char} (h : IsDigit c) : 0x30 ≤ c.toNat ∧ c.toNat < 0x80 := by
  have hrange : '0' ≤ c ∧ c ≤ 'f' := by
    rcases h with ⟨hlow, hhigh⟩ | ⟨hlow, hhigh⟩ | ⟨hlow, hhigh⟩
    · exact ⟨hlow, Char.le_trans hhigh (by decide)⟩
    · exact ⟨Char.le_trans (by decide) hlow, hhigh⟩
    · exact ⟨Char.le_trans (by decide) hlow, Char.le_trans hhigh (by decide)⟩
  have hlow : '0'.toNat ≤ c.toNat := UInt32.le_iff_toNat_le.1 hrange.1
  have hhigh : c.toNat ≤ 'f'.toNat := UInt32.le_iff_toNat_le.1 hrange.2
  exact ⟨hlow, Nat.lt_of_le_of_lt hhigh (by decide)⟩

theorem lt_of_isDigit {c : Char} (h : IsDigit c) : c.toNat < 0x80 :=
  (bounds_of_isDigit h).2

theorem digit_spec {n : Nat} (h : n < 16) :
    IsDigit (digit n) ∧ value? (digit n) = some n := by
  interval_cases n <;> exact ⟨value?_isSome_iff.1 rfl, rfl⟩

/-- A byte that is no ASCII character is no digit. -/
theorem byteValue?_of_le {b : UInt8} (h : 0x80 ≤ b.toNat) : byteValue? b = none := by
  rw [← Option.not_isSome_iff_eq_none, byteValue?, value?_isSome_iff]
  intro hdigit
  have hb : b.toNat < 256 := b.toNat_lt
  have hnat : (Char.ofNat b.toNat).toNat = b.toNat := by
    rw [Char.ofNat, dif_pos (Or.inl (by omega))]
    rfl
  have hlt := lt_of_isDigit hdigit
  omega

theorem byteValue?_toUInt8 {c : Char} (h : c.toNat < 0x80) :
    byteValue? c.toNat.toUInt8 = value? c := by
  rw [byteValue?, Utf8.toNat_toUInt8 (by omega), Char.ofNat_toNat]

/-! ## What is written -/

theorem encode_bytes (bs : Bytes) :
    Utf8.encode (encode bs) = bs.flatMap fun b =>
      [(digit (b.toNat / 16)).toNat.toUInt8, (digit (b.toNat % 16)).toNat.toUInt8] := by
  have hone : ∀ b : UInt8, (encodeByte b).flatMap Utf8.encodeChar =
      [(digit (b.toNat / 16)).toNat.toUInt8, (digit (b.toNat % 16)).toNat.toUInt8] := by
    intro b
    have hb : b.toNat < 256 := b.toNat_lt
    have hhigh := lt_of_isDigit (digit_spec (n := b.toNat / 16) (by omega)).1
    have hlow := lt_of_isDigit (digit_spec (n := b.toNat % 16) (by omega)).1
    simp [encodeByte, Utf8.encodeChar_of_lt hhigh, Utf8.encodeChar_of_lt hlow]
  rw [Utf8.encode, encode, String.toList_ofList, List.flatMap_assoc]
  simp only [hone]

theorem length_encode_bytes (bs : Bytes) : (Utf8.encode (encode bs)).length = 2 * bs.length := by
  rw [encode_bytes, List.length_flatMap]
  simp only [List.length_cons, List.length_nil, List.map_const', List.sum_replicate_nat]
  omega

/-- Reading what was written, whatever was gathered before. -/
theorem decodePairs_encode (gathered : Bytes) (index : Nat) (bs : Bytes) :
    decodePairs gathered index (Utf8.encode (encode bs)) = .ok (gathered.reverse ++ bs) := by
  rw [encode_bytes]
  induction bs generalizing gathered index with
  | nil => simp [decodePairs]
  | cons b bs ih =>
    have hb : b.toNat < 256 := b.toNat_lt
    obtain ⟨hhigh, hx⟩ := digit_spec (n := b.toNat / 16) (by omega)
    obtain ⟨hlow, hy⟩ := digit_spec (n := b.toNat % 16) (by omega)
    rw [← byteValue?_toUInt8 (lt_of_isDigit hhigh)] at hx
    rw [← byteValue?_toUInt8 (lt_of_isDigit hlow)] at hy
    have hbyte : (b.toNat / 16 * 16 + b.toNat % 16).toUInt8 = b := by
      rw [Nat.div_add_mod', ← UInt8.toNat_inj, Utf8.toNat_toUInt8 hb]
    rw [List.flatMap_cons, List.cons_append, List.cons_append, List.nil_append, decodePairs, hx, hy]
    simp only [hbyte, ih, List.reverse_cons, List.append_assoc, List.cons_append, List.nil_append]

/-- Bytes that are written are read again. -/
theorem decode_encode (bs : Bytes) : decode (encode bs) = .ok bs := by
  have heven : (Utf8.encode (encode bs)).length % 2 ≠ 1 := by
    rw [length_encode_bytes]
    omega
  rw [decode]
  simp only [heven, if_false, decodePairs_encode, List.reverse_nil, List.nil_append]

/-! ## What can be read -/

/-- A text of pairs of digits. -/
def IsText (s : String) : Prop :=
  s.length % 2 = 0 ∧ ∀ c ∈ s.toList, IsDigit c

instance (s : String) : Decidable (IsText s) :=
  @instDecidableAnd _ _ _ (List.decidableBAll IsDigit s.toList)

theorem exists_decodePairs_iff (gathered : Bytes) (index : Nat) {bs : Bytes}
    (heven : bs.length % 2 = 0) :
    (∃ out, decodePairs gathered index bs = .ok out) ↔ ∀ b ∈ bs, (byteValue? b).isSome = true := by
  fun_induction decodePairs gathered index bs with
  | case1 gathered index a b rest x y hx hy ih =>
    simp only [List.length_cons] at heven
    rw [ih (by omega)]
    simp [hx, hy]
  | case2 gathered index a b rest hx => simp [hx]
  | case3 gathered index a b rest x hx hy => simp [hx, hy]
  | case4 bs gathered index hshort =>
    -- What is left is even and shorter than two.
    rcases bs with _ | ⟨a, _ | ⟨b, rest⟩⟩
    · simp
    · simp at heven
    · exact absurd rfl (hshort a b rest)

/-- The bytes of a character are digits exactly if it is one itself. -/
theorem forall_encodeChar_iff (c : Char) :
    (∀ b ∈ Utf8.encodeChar c, (byteValue? b).isSome = true) ↔ IsDigit c := by
  by_cases hc : c.toNat < 0x80
  · rw [Utf8.encodeChar_of_lt hc, List.forall_mem_singleton, byteValue?_toUInt8 hc,
      value?_isSome_iff]
  · refine iff_of_false (fun hall => ?_) (fun h => hc (lt_of_isDigit h))
    obtain ⟨b, hmem, hb⟩ := Utf8.exists_le_of_mem_encodeChar (Nat.le_of_not_lt hc)
    have hsome := hall b hmem
    rw [byteValue?_of_le hb] at hsome
    cases hsome

/-- Exactly the texts of pairs of digits can be read. -/
theorem exists_decode_iff {s : String} : (∃ bs, decode s = .ok bs) ↔ IsText s := by
  have hdigits : (∀ b ∈ Utf8.encode s, (byteValue? b).isSome = true) ↔
      ∀ c ∈ s.toList, IsDigit c := by
    rw [Utf8.encode, List.forall_mem_flatMap]
    exact forall₂_congr fun c _ => forall_encodeChar_iff c
  have hlength : (∀ c ∈ s.toList, IsDigit c) → (Utf8.encode s).length = s.length := by
    intro h
    rw [← String.length_toList, Utf8.encode, List.length_flatMap]
    have hone : ∀ c ∈ s.toList, (Utf8.encodeChar c).length = 1 := fun c hc => by
      rw [Utf8.encodeChar_of_lt (lt_of_isDigit (h c hc))]
      rfl
    rw [List.map_congr_left hone, List.map_const', List.sum_replicate_nat, Nat.mul_one]
  rw [decode, IsText]
  split
  · rename_i hodd
    refine iff_of_false (by simp) ?_
    rintro ⟨heven, h⟩
    rw [hlength h] at hodd
    omega
  · rw [exists_decodePairs_iff [] 0 (by omega), hdigits]
    refine ⟨fun h => ⟨?_, h⟩, And.right⟩
    rw [← hlength h]
    omega

end Hex
end PluginHost
