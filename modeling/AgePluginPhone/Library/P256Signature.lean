import AgePluginPhone.Library.P256

/-!
# P-256 signatures as numbers

The fixed-width form of two numbers below the group order, and which of a number and its negative
is in the lower half.
-/

namespace AgePluginPhone.Library.P256

open Cbor

/-- Two numbers of 32 bytes each. -/
def compact (r s : ℕ) : Bytes 64 := ⟨bigEndian 32 r ++ bigEndian 32 s, by simp⟩

variable {r s : ℕ}

theorem order_lt : order < 256 ^ 32 := by norm_num [order]

theorem compact_take (r s : ℕ) : (compact r s).1.take 32 = bigEndian 32 r :=
  List.take_left' (bigEndian_length 32 r)

theorem compact_drop (r s : ℕ) : (compact r s).1.drop 32 = bigEndian 32 s :=
  List.drop_left' (bigEndian_length 32 r)

theorem compact_first (hr : r < order) : bigEndianValue ((compact r s).1.take 32) = r := by
  rw [compact_take, bigEndianValue_bigEndian (hr.trans order_lt)]

theorem compact_second (hs : s < order) : bigEndianValue ((compact r s).1.drop 32) = s := by
  rw [compact_drop, bigEndianValue_bigEndian (hs.trans order_lt)]

theorem isLowS_compact (hs : s < order) : IsLowS (compact r s) ↔ s ≤ order / 2 := by
  rw [IsLowS, compact_second hs]

private theorem order_odd : order = 2 * (order / 2) + 1 := by norm_num [order]

theorem negative_range (hs : 0 < s ∧ s < order) : 0 < order - s ∧ order - s < order := by
  omega

/-- The order is odd, so that a number and its negative are in different halves. -/
theorem negative_low (hs : 0 < s ∧ s < order) : order - s ≤ order / 2 ↔ ¬ s ≤ order / 2 := by
  have hodd := order_odd
  omega

theorem min_negative_of_low (hlow : s ≤ order / 2) : min s (order - s) = s := by
  have hodd := order_odd
  exact min_eq_left (by omega)

theorem min_negative_of_high (hhigh : ¬ s ≤ order / 2) : min s (order - s) = order - s := by
  have hodd := order_odd
  exact min_eq_right (by omega)

theorem min_negative_le (s : ℕ) : min s (order - s) ≤ order / 2 := by
  have hodd := order_odd
  omega

end AgePluginPhone.Library.P256
