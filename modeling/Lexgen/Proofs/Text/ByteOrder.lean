/-
# The order of texts is the order of their bytes

Texts are compared character by character, by code points. UTF-8 keeps this order: the number of a
character is written in digits of six bits behind a first byte that grows with the number
(`exists_utf8EncodeChar`), so the bytes of a smaller character are smaller at the first place where
they differ, and there is such a place (`utf8EncodeChar_append_lt`). So comparing the bytes gives
the same order of texts (`lt_iff_bytes_lt`).

Key definitions: `bytes`, `sixBits`.
Key theorems: `utf8EncodeChar_append_lt`, `lt_iff_bytes_lt`.
-/
import Mathlib.Data.String.Basic

namespace Lexgen.Text

/-- The UTF-8 bytes of a text. -/
def bytes (s : String) : List UInt8 := s.toUTF8.data.toList

theorem bytes_eq (s : String) : bytes s = s.toList.flatMap String.utf8EncodeChar := by
  have hencoded : s.toUTF8 = s.toList.utf8Encode := by
    rw [← String.toByteArray_ofList, String.ofList_toList]
    rfl
  rw [bytes, hencoded, List.utf8Encode, List.toList_data_toByteArray]

/-- The last digits of a number to the base of 64, as the bytes that follow a first byte. -/
def sixBits : Nat → Nat → List UInt8
  | 0, _ => []
  | k + 1, n => UInt8.ofNat (n / 64 ^ k % 64 + 0x80) :: sixBits k n

/-- Small numbers are compared like the bytes they are. -/
theorem ofNat_cons_lt {a b : Nat} (hb : b < 256) {xs ys : List UInt8}
    (h : a < b ∨ a = b ∧ xs < ys) : UInt8.ofNat a :: xs < UInt8.ofNat b :: ys := by
  rw [List.cons_lt_cons_iff, UInt8.lt_iff_toNat_lt, UInt8.toNat_ofNat', UInt8.toNat_ofNat']
  rcases h with h | ⟨rfl, h⟩
  · left
    omega
  · exact .inr ⟨rfl, h⟩

/-- Numbers that agree in front of the last digits are compared by these. -/
theorem sixBits_append_lt {n m : Nat} (h : n < m) (xs ys : List UInt8) :
    ∀ {k : Nat}, n / 64 ^ k = m / 64 ^ k → sixBits k n ++ xs < sixBits k m ++ ys
  | 0, hsame => by
    rw [pow_zero, Nat.div_one, Nat.div_one] at hsame
    omega
  | k + 1, hsame => by
    rw [pow_succ, ← Nat.div_div_eq_div_mul, ← Nat.div_div_eq_div_mul] at hsame
    have hle : n / 64 ^ k ≤ m / 64 ^ k := Nat.div_le_div_right h.le
    refine ofNat_cons_lt (by omega) ?_
    rcases Nat.lt_or_eq_of_le hle with hlt | heq
    · left
      omega
    · exact .inr ⟨by rw [heq], sixBits_append_lt h xs ys heq⟩

/-- The first byte of a character holds what the digits behind it leave, and tells their number. -/
theorem exists_utf8EncodeChar (c : Char) : ∃ k first,
    String.utf8EncodeChar c = UInt8.ofNat first :: sixBits k c.toNat ∧
    (k = 0 ∧ first = c.toNat / 64 ^ k ∧ first < 0x80 ∨
      k = 1 ∧ first = c.toNat / 64 ^ k + 0xC0 ∧ 0x80 ≤ c.toNat ∧ first < 0xE0 ∨
      k = 2 ∧ first = c.toNat / 64 ^ k + 0xE0 ∧ 0x800 ≤ c.toNat ∧ first < 0xF0 ∨
      k = 3 ∧ first = c.toNat / 64 ^ k + 0xF0 ∧ 0x10000 ≤ c.toNat ∧ first < 0x100) := by
  have hvalid : c.toNat < 0x110000 := by
    have := c.valid
    simp only [UInt32.isValidChar, Nat.isValidChar] at this
    show c.val.toNat < _
    omega
  have hval : c.val.toNat = c.toNat := rfl
  simp only [String.utf8EncodeChar, hval]
  split
  · exact ⟨0, c.toNat, rfl, by omega⟩
  · split
    · refine ⟨1, c.toNat / 64 + 0xC0, ?_, by omega⟩
      rw [Nat.mod_eq_of_lt (by omega)]
      simp [sixBits]
    · split
      · refine ⟨2, c.toNat / 4096 + 0xE0, ?_, by omega⟩
        rw [Nat.mod_eq_of_lt (by omega)]
        simp [sixBits]
      · refine ⟨3, c.toNat / 262144 + 0xF0, ?_, by omega⟩
        rw [Nat.mod_eq_of_lt (by omega)]
        simp [sixBits]

/-- **The bytes of a smaller character come first**, whatever stands behind both. -/
theorem utf8EncodeChar_append_lt {c d : Char} (h : c < d) (xs ys : List UInt8) :
    String.utf8EncodeChar c ++ xs < String.utf8EncodeChar d ++ ys := by
  have hlt : c.toNat < d.toNat := h
  obtain ⟨k, a, hc, ha⟩ := exists_utf8EncodeChar c
  obtain ⟨l, b, hd, hb⟩ := exists_utf8EncodeChar d
  rw [hc, hd, List.cons_append, List.cons_append]
  refine ofNat_cons_lt (by omega) ?_
  by_cases hsize : k = l
  · subst hsize
    have hle : c.toNat / 64 ^ k ≤ d.toNat / 64 ^ k := Nat.div_le_div_right hlt.le
    rcases Nat.lt_or_eq_of_le hle with hlt' | heq
    · left
      omega
    · exact .inr ⟨by omega, sixBits_append_lt hlt xs ys heq⟩
  · left
    rcases ha with ⟨rfl, ha⟩ | ⟨rfl, ha⟩ | ⟨rfl, ha⟩ | ⟨rfl, ha⟩ <;>
      rcases hb with ⟨rfl, hb⟩ | ⟨rfl, hb⟩ | ⟨rfl, hb⟩ | ⟨rfl, hb⟩ <;> omega

theorem flatMap_utf8EncodeChar_lt : ∀ {cs ds : List Char}, cs < ds →
    cs.flatMap String.utf8EncodeChar < ds.flatMap String.utf8EncodeChar
  | cs, [], h => absurd h (List.not_lt_nil cs)
  | [], d :: ds, _ => by
    obtain ⟨k, b, hd, -⟩ := exists_utf8EncodeChar d
    rw [List.flatMap_nil, List.flatMap_cons, hd]
    exact List.nil_lt_cons ..
  | c :: cs, d :: ds, h => by
    rw [List.flatMap_cons, List.flatMap_cons]
    rcases List.cons_lt_cons_iff.mp h with hc | ⟨rfl, hcs⟩
    · exact utf8EncodeChar_append_lt hc _ _
    · exact List.append_left_lt (flatMap_utf8EncodeChar_lt hcs)

/-- **Texts are in the order of their bytes.** -/
theorem lt_iff_bytes_lt {s t : String} : s < t ↔ bytes s < bytes t := by
  have hmono {s t : String} (h : s < t) : bytes s < bytes t := by
    rw [bytes_eq, bytes_eq]
    exact flatMap_utf8EncodeChar_lt (String.lt_iff_toList_lt.mp h)
  refine ⟨hmono, fun h => ?_⟩
  rcases lt_trichotomy s t with hlt | rfl | hgt
  · exact hlt
  · exact absurd h (List.lt_irrefl _)
  · exact absurd (hmono hgt) (List.lt_asymm h)

end Lexgen.Text
