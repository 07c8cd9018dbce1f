/-
# The order of names

Strings are compared code point by code point.  This is the order of their UTF-8 bytes
(`lt_iff_bytes_lt`): the bytes of a smaller code point are smaller at the first byte in which they
differ, and no code point's bytes begin another's.

| code points below | bytes | first byte |
| --- | --- | --- |
| `0x80` | 1 | `0x00 … 0x7f` |
| `0x800` | 2 | `0xc2 … 0xdf` |
| `0x10000` | 3 | `0xe0 … 0xef` |
| `0x110000` | 4 | `0xf0 … 0xf4` |

The specification sorts by name without saying how names compare (section 4.3); it is by these
bytes.
-/

import Retrace.Handle

namespace Retrace

/-- The UTF-8 bytes of a string, which is what names are compared by when they are sorted. -/
def bytes (s : String) : List UInt8 := s.toByteArray.data.toList

theorem bytes_eq_flatMap (s : String) : bytes s = s.toList.flatMap String.utf8EncodeChar := by
  rw [bytes, ← String.ofList_toList (s := s), String.toByteArray_ofList, String.toList_ofList]
  simp [List.utf8Encode]

theorem toNat_val_lt (c : Char) : c.val.toNat < 0x110000 := by
  have h := c.valid
  simp only [UInt32.isValidChar, Nat.isValidChar] at h
  omega

/-- The bytes of a code point hold its digits to the base 64, most significant one first. -/
theorem utf8EncodeChar_digits (c : Char) :
    (c.val.toNat < 0x80 ∧ String.utf8EncodeChar c = [.ofNat c.val.toNat]) ∨
      (∃ i j, 2 ≤ i ∧ i < 32 ∧ j < 64 ∧ c.val.toNat = 64 * i + j ∧
        String.utf8EncodeChar c = [.ofNat (i + 192), .ofNat (j + 128)]) ∨
      (∃ i j k, i < 16 ∧ j < 64 ∧ k < 64 ∧ 32 ≤ 64 * i + j ∧ c.val.toNat = 4096 * i + 64 * j + k ∧
        String.utf8EncodeChar c = [.ofNat (i + 224), .ofNat (j + 128), .ofNat (k + 128)]) ∨
      (∃ i j k l, i < 8 ∧ j < 64 ∧ k < 64 ∧ l < 64 ∧ 16 ≤ 64 * i + j ∧
        c.val.toNat = 262144 * i + 4096 * j + 64 * k + l ∧ String.utf8EncodeChar c =
          [.ofNat (i + 240), .ofNat (j + 128), .ofNat (k + 128), .ofNat (l + 128)]) := by
  have hv := toNat_val_lt c
  unfold String.utf8EncodeChar
  by_cases h1 : c.val.toNat ≤ 0x7f
  · exact .inl ⟨by omega, if_pos h1⟩
  by_cases h2 : c.val.toNat ≤ 0x7ff
  · refine .inr (.inl ⟨c.val.toNat / 64 % 32, c.val.toNat % 64, by omega, by omega, by omega,
      by omega, ?_⟩)
    exact (if_neg h1).trans (if_pos h2)
  by_cases h3 : c.val.toNat ≤ 0xffff
  · refine .inr (.inr (.inl ⟨c.val.toNat / 4096 % 16, c.val.toNat / 64 % 64, c.val.toNat % 64,
      by omega, by omega, by omega, by omega, by omega, ?_⟩))
    exact (if_neg h1).trans ((if_neg h2).trans (if_pos h3))
  · refine .inr (.inr (.inr ⟨c.val.toNat / 262144 % 8, c.val.toNat / 4096 % 64,
      c.val.toNat / 64 % 64, c.val.toNat % 64, by omega, by omega, by omega, by omega, by omega,
      by omega, ?_⟩))
    exact (if_neg h1).trans ((if_neg h2).trans (if_neg h3))

/-- The bytes of a smaller code point come first, whatever follows on either side. -/
theorem utf8EncodeChar_append_lt {c d : Char} (h : c < d) (x y : List UInt8) :
    String.utf8EncodeChar c ++ x < String.utf8EncodeChar d ++ y := by
  have hlt : c.val.toNat < d.val.toNat := h
  rcases utf8EncodeChar_digits c with ⟨hc, ec⟩ | ⟨i, j, _, _, _, hc, ec⟩ |
      ⟨i, j, k, _, _, _, _, hc, ec⟩ | ⟨i, j, k, l, _, _, _, _, _, hc, ec⟩ <;>
    rcases utf8EncodeChar_digits d with ⟨hd, ed⟩ | ⟨i', j', _, _, _, hd, ed⟩ |
      ⟨i', j', k', _, _, _, _, hd, ed⟩ | ⟨i', j', k', l', _, _, _, _, _, hd, ed⟩ <;>
    rw [ec, ed] <;>
    simp only [List.cons_append, List.cons_lt_cons_iff, UInt8.lt_iff_toNat_lt, ← UInt8.toNat_inj,
      UInt8.toNat_ofNat', Nat.reducePow] <;>
    omega

theorem flatMap_utf8EncodeChar_lt {l m : List Char} (h : l < m) :
    l.flatMap String.utf8EncodeChar < m.flatMap String.utf8EncodeChar := by
  induction h with
  | @nil d m =>
    rw [List.flatMap_nil, List.flatMap_cons]
    cases hd : String.utf8EncodeChar d with
    | nil => exact absurd hd String.utf8EncodeChar_ne_nil
    | cons b rest => exact List.nil_lt_cons _ _
  | rel h =>
    rw [List.flatMap_cons, List.flatMap_cons]
    exact utf8EncodeChar_append_lt h _ _
  | cons _ ih =>
    rw [List.flatMap_cons, List.flatMap_cons]
    exact List.append_left_lt ih

theorem bytes_lt_of_lt {s t : String} (h : s < t) : bytes s < bytes t := by
  rw [bytes_eq_flatMap, bytes_eq_flatMap]
  exact flatMap_utf8EncodeChar_lt h

/-- **Strings are ordered as their UTF-8 bytes are**, although one compares characters and the other
bytes of them. -/
theorem lt_iff_bytes_lt (s t : String) : s < t ↔ bytes s < bytes t := by
  refine ⟨bytes_lt_of_lt, fun h => ?_⟩
  have hirrefl : ∀ l : List UInt8, ¬ l < l := fun l => List.lt_irrefl l
  rw [← String.not_le]
  intro hle
  by_cases hlt : t < s
  · exact hirrefl _ (List.lt_trans h (bytes_lt_of_lt hlt))
  · rw [String.le_antisymm hle (String.not_lt.1 hlt)] at h
    exact hirrefl _ h

end Retrace
