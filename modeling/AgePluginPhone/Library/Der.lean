import AgePluginPhone.Library.Cbor

/-!
# DER integers

The minimal two's complement content of a non-negative integer: the shortest bytes with its value
whose highest bit is clear.
-/

namespace AgePluginPhone.Library.Der

open Cbor

/-- The content of a DER integer is minimal and non-negative. -/
structure IsInteger (n : ℕ) (content : List Byte) : Prop where
  nonempty : content ≠ []
  value : bigEndianValue content = n
  positive : ∀ first rest, content = first :: rest → first.val < 128
  minimal : ∀ second rest, content = 0 :: second :: rest → 128 ≤ second.val

/-- `toByteArray` of a non-negative big integer: room for its bits and a sign bit. -/
def toByteArray (n : ℕ) : List Byte := bigEndian (n.size / 8 + 1) n

def integer (n : ℕ) : List Byte := 2 :: byte (toByteArray n).length :: toByteArray n

/-- A sequence of two integers. -/
def integerPair (m n : ℕ) : List Byte :=
  0x30 :: byte (integer m ++ integer n).length :: (integer m ++ integer n)

section Content

variable {n : ℕ} {content : List Byte}

private theorem pow_256 (k : ℕ) : 256 ^ k = 2 ^ (8 * k) := by
  rw [show 256 = 2 ^ 8 by norm_num, ← pow_mul]

theorem toByteArray_length (n : ℕ) : (toByteArray n).length = n.size / 8 + 1 :=
  bigEndian_length _ _

theorem toByteArray_value (n : ℕ) : bigEndianValue (toByteArray n) = n := by
  apply bigEndianValue_bigEndian
  rw [pow_256, ← Nat.size_le]
  omega

private theorem IsInteger.size_le {first : Byte} {rest : List Byte} (h : IsInteger n (first :: rest)) :
    n.size ≤ 8 * rest.length + 7 := by
  have hfirst := h.positive first rest rfl
  have hrest := bigEndianValue_lt rest
  have hvalue := h.value
  rw [bigEndianValue_cons] at hvalue
  rw [Nat.size_le, pow_add, ← pow_256, ← hvalue]
  calc first.val * 256 ^ rest.length + bigEndianValue rest
      < first.val * 256 ^ rest.length + 256 ^ rest.length := Nat.add_lt_add_left hrest _
    _ = (first.val + 1) * 256 ^ rest.length := by ring
    _ ≤ 128 * 256 ^ rest.length := Nat.mul_le_mul_right _ hfirst
    _ = 256 ^ rest.length * 2 ^ 7 := by ring

private theorem IsInteger.le_size {first : Byte} {rest : List Byte} (h : IsInteger n (first :: rest)) :
    8 * rest.length ≤ n.size := by
  have hvalue := h.value
  rw [bigEndianValue_cons] at hvalue
  cases rest with
  | nil => simp
  | cons second rest =>
      have hlow : 2 ^ (8 * (rest.length + 1) - 1) ≤ n := by
        have hsplit : 2 ^ (8 * (rest.length + 1) - 1) = 128 * 256 ^ rest.length := by
          rw [pow_256, show 8 * (rest.length + 1) - 1 = 7 + 8 * rest.length by omega, pow_add]
          norm_num
        rw [hsplit, ← hvalue]
        by_cases hzero : first = 0
        · have hsecond := h.minimal second rest (by rw [hzero])
          rw [hzero, bigEndianValue_cons]
          have hmul := Nat.mul_le_mul_right (256 ^ rest.length) hsecond
          simp only [Fin.val_zero, Nat.zero_mul, Nat.zero_add]
          omega
        · have hpos : 1 ≤ first.val := Nat.one_le_iff_ne_zero.mpr fun heq => hzero (Fin.ext heq)
          have hmul := Nat.mul_le_mul_right (256 ^ (second :: rest).length) hpos
          have hpow : 128 * 256 ^ rest.length ≤ 1 * 256 ^ (second :: rest).length := by
            rw [List.length_cons, pow_succ]
            omega
          exact (hpow.trans hmul).trans (Nat.le_add_right _ _)
      have hlt := Nat.lt_size.mpr hlow
      rw [List.length_cons]
      omega

/-- The minimal content of an integer is unique: it is `toByteArray`. -/
theorem isInteger_iff : IsInteger n content ↔ content = toByteArray n := by
  constructor
  · intro h
    cases content with
    | nil => exact absurd rfl h.nonempty
    | cons first rest =>
        have hlow := h.le_size
        have hhigh := h.size_le
        have hlength : (first :: rest).length = n.size / 8 + 1 := by
          rw [List.length_cons]
          omega
        have hvalue := bigEndian_bigEndianValue (first :: rest)
        rw [h.value, hlength] at hvalue
        exact hvalue.symm
  · rintro rfl
    have hlength := toByteArray_length n
    have hvalue := toByteArray_value n
    refine ⟨?_, hvalue, ?_, ?_⟩
    · intro hnil
      rw [hnil] at hlength
      simp at hlength
    · intro first rest hcontent
      rw [hcontent] at hlength hvalue
      rw [List.length_cons, Nat.add_right_cancel_iff] at hlength
      rw [bigEndianValue_cons] at hvalue
      have hlt : n < 128 * 256 ^ rest.length := by
        have hsize := Nat.lt_size_self n
        have hle : 2 ^ n.size ≤ 2 ^ (7 + 8 * rest.length) := Nat.pow_le_pow_right (by decide) (by omega)
        rw [pow_add, ← pow_256] at hle
        omega
      by_contra hlarge
      have hmul := Nat.mul_le_mul_right (256 ^ rest.length) (not_lt.mp hlarge)
      omega
    · intro second rest hcontent
      rw [hcontent] at hlength hvalue
      rw [List.length_cons, List.length_cons, Nat.add_right_cancel_iff] at hlength
      rw [bigEndianValue_cons, bigEndianValue_cons, Fin.val_zero, Nat.zero_mul, Nat.zero_add] at hvalue
      by_contra hsmall
      have hrest := bigEndianValue_lt rest
      have hmul : (second.val + 1) * 256 ^ rest.length ≤ 128 * 256 ^ rest.length :=
        Nat.mul_le_mul_right _ (by omega)
      have hlt : n < 2 ^ (7 + 8 * rest.length) := by
        rw [pow_add, ← pow_256, ← hvalue]
        calc second.val * 256 ^ rest.length + bigEndianValue rest
            < second.val * 256 ^ rest.length + 256 ^ rest.length := Nat.add_lt_add_left hrest _
          _ = (second.val + 1) * 256 ^ rest.length := by ring
          _ ≤ 2 ^ 7 * 256 ^ rest.length := hmul
      have hsize := Nat.size_le.mpr hlt
      omega

end Content

end AgePluginPhone.Library.Der
