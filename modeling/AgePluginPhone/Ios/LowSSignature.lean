import AgePluginPhone.Ios.OfflineEnvelope
import AgePluginPhone.Library.P256Signature

/-!
# Low-S signatures on iOS

The subtraction of `lowSSignature` with its conversions to a byte and its array accesses explicit.
It never traps, and it is subtraction of the numbers that the bytes stand for.
-/

namespace AgePluginPhone.Ios

open Library Cbor

/-- `UInt8` of an `Int`. -/
def toUInt8 (value : ℤ) : Except Failure Byte :=
  if 0 ≤ value ∧ value ≤ 255 then .ok (byte value.toNat) else .error .trap

/-- One round of the loop of `subtract`: the bytes written so far, and the borrow. -/
def subtractByte (pair : Byte × Byte) (state : List Byte × ℤ) : Except Failure (List Byte × ℤ) := do
  let value : ℤ := pair.1.val - pair.2.val - state.2
  let adjusted : ℤ × ℤ := if value < 0 then (value + 256, 1) else (value, 0)
  return ((← toUInt8 adjusted.1) :: state.1, adjusted.2)

/-- `subtract`, whose loop runs over the indices of `lhs` from the last to the first. -/
def subtractChecked (lhs rhs : List Byte) : Except Failure (List Byte) := do
  ensure (lhs.length ≤ rhs.length) .trap
  let state ← (lhs.zip rhs).foldrM subtractByte ([], 0)
  return state.1

def lowSSignatureChecked (raw : List Byte) : Except Failure (List Byte) := do
  ensure (raw.length = 64) (.protocol .signature)
  let r := raw.take 32
  let s := raw.drop 32
  if isLowS s then return raw
  return r ++ (← subtractChecked order s)

section Comparison

theorem lexicographicCompare_cons (a b : Byte) (lhs rhs : List Byte) :
    lexicographicCompare (a :: lhs) (b :: rhs) =
      if a ≠ b then (if a < b then -1 else 1) else lexicographicCompare lhs rhs := by
  by_cases h : a = b
  · simp [lexicographicCompare, h]
  · simp [lexicographicCompare, h]

/-- Bytes of the same number compare as the numbers they stand for. -/
theorem lexicographicCompare_iff {lhs rhs : List Byte} (hlength : lhs.length = rhs.length) :
    lexicographicCompare lhs rhs ≤ 0 ↔ bigEndianValue lhs ≤ bigEndianValue rhs := by
  induction lhs generalizing rhs with
  | nil =>
      have hnil : rhs = [] := List.length_eq_zero_iff.mp hlength.symm
      simp [hnil, lexicographicCompare]
  | cons a lhs ih =>
      cases rhs with
      | nil => simp at hlength
      | cons b rhs =>
          have hrest : lhs.length = rhs.length := Nat.succ.inj hlength
          have hl := bigEndianValue_lt lhs
          have hr := bigEndianValue_lt rhs
          rw [hrest] at hl
          rw [lexicographicCompare_cons, bigEndianValue_cons, bigEndianValue_cons, hrest]
          by_cases heq : a = b
          · rw [if_neg (not_not.mpr heq), ih hrest, heq]
            omega
          · have hne : a.val ≠ b.val := fun h => heq (Fin.ext h)
            rw [if_pos heq]
            by_cases hlt : a < b
            · have hmul : (a.val + 1) * 256 ^ rhs.length ≤ b.val * 256 ^ rhs.length :=
                Nat.mul_le_mul_right _ hlt
              rw [if_pos hlt]
              rw [Nat.succ_mul] at hmul
              omega
            · have hgt : b.val < a.val := lt_of_le_of_ne (not_lt.mp hlt) (Ne.symm hne)
              have hmul : (b.val + 1) * 256 ^ rhs.length ≤ a.val * 256 ^ rhs.length :=
                Nat.mul_le_mul_right _ hgt
              rw [if_neg hlt]
              rw [Nat.succ_mul] at hmul
              omega

end Comparison

section Subtraction

/-- The state of the loop after the bytes on its right: all of them are bytes, and the borrow is
what the difference lacks. -/
private theorem foldrM_subtract {lhs rhs : List Byte} (hlength : lhs.length = rhs.length) :
    ∃ output, ∃ borrow : ℤ, (lhs.zip rhs).foldrM subtractByte ([], 0) = .ok (output, borrow) ∧
      output.length = lhs.length ∧ (borrow = 0 ∨ borrow = 1) ∧
      (bigEndianValue output : ℤ) =
        bigEndianValue lhs - bigEndianValue rhs + borrow * 256 ^ lhs.length := by
  induction lhs generalizing rhs with
  | nil =>
      have hnil : rhs = [] := List.length_eq_zero_iff.mp hlength.symm
      subst hnil
      exact ⟨[], 0, rfl, rfl, .inl rfl, by simp [bigEndianValue]⟩
  | cons a lhs ih =>
      cases rhs with
      | nil => simp at hlength
      | cons b rhs =>
          have hrest : lhs.length = rhs.length := Nat.succ.inj hlength
          obtain ⟨output, borrow, hrun, hcount, hborrow, hvalue⟩ := ih hrest
          have ha := a.isLt
          have hb := b.isLt
          have hstep : ∃ c : Byte, ∃ next : ℤ, subtractByte (a, b) (output, borrow) =
              .ok (c :: output, next) ∧ (next = 0 ∨ next = 1) ∧
                (c.val : ℤ) = a.val - b.val - borrow + next * 256 := by
            by_cases hneg : (a.val : ℤ) - b.val - borrow < 0
            · have hrange : 0 ≤ (a.val : ℤ) - b.val - borrow + 256 ∧
                  (a.val : ℤ) - b.val - borrow + 256 ≤ 255 := by omega
              refine ⟨byte ((a.val : ℤ) - b.val - borrow + 256).toNat, 1, ?_, .inr rfl, ?_⟩
              · simp only [subtractByte, if_pos hneg, toUInt8, if_pos hrange]
                rfl
              · rw [byte, Fin.val_ofNat, Nat.mod_eq_of_lt (by omega)]
                omega
            · have hrange : 0 ≤ (a.val : ℤ) - b.val - borrow ∧
                  (a.val : ℤ) - b.val - borrow ≤ 255 := by omega
              refine ⟨byte ((a.val : ℤ) - b.val - borrow).toNat, 0, ?_, .inl rfl, ?_⟩
              · simp only [subtractByte, if_neg hneg, toUInt8, if_pos hrange]
                rfl
              · rw [byte, Fin.val_ofNat, Nat.mod_eq_of_lt (by omega)]
                omega
          obtain ⟨c, next, hbyte, hnext, hdigit⟩ := hstep
          refine ⟨c :: output, next, ?_, by rw [List.length_cons, hcount, List.length_cons], hnext, ?_⟩
          · rw [List.zip_cons_cons, List.foldrM_cons, hrun]
            exact hbyte
          · rw [bigEndianValue_cons, bigEndianValue_cons, bigEndianValue_cons, hcount, ← hrest,
              List.length_cons, pow_succ]
            push_cast
            rw [hvalue, hdigit]
            ring

/-- The difference of two numbers of which the second is not the larger. -/
theorem subtractChecked_eq {lhs rhs : List Byte} (hlength : lhs.length = rhs.length)
    (hle : bigEndianValue rhs ≤ bigEndianValue lhs) :
    subtractChecked lhs rhs =
      .ok (bigEndian lhs.length (bigEndianValue lhs - bigEndianValue rhs)) := by
  obtain ⟨output, borrow, hrun, hcount, hborrow, hvalue⟩ := foldrM_subtract hlength
  have hbound := bigEndianValue_lt output
  rw [hcount] at hbound
  have hnone : borrow = 0 := by
    rcases hborrow with rfl | rfl
    · rfl
    · have hlt : (bigEndianValue output : ℤ) < 256 ^ lhs.length := by exact_mod_cast hbound
      omega
  have hdifference : bigEndianValue output = bigEndianValue lhs - bigEndianValue rhs := by
    rw [hnone, zero_mul, add_zero] at hvalue
    omega
  have hback := bigEndian_bigEndianValue output
  rw [hdifference, hcount] at hback
  rw [subtractChecked, ensure_true _ hlength.le, ok_bind, hrun, hback]
  rfl

variable {r s : ℕ}

theorem isLowS_iff (hs : s < P256.order) :
    isLowS ((P256.compact r s).1.drop 32) = true ↔ s ≤ P256.order / 2 := by
  have hlength : ((P256.compact r s).1.drop 32).length = halfOrder.length := by
    rw [P256.compact_drop, bigEndian_length]
    rfl
  have hhalf : bigEndianValue halfOrder = P256.order / 2 := by decide +kernel
  rw [isLowS, decide_eq_true_iff, lexicographicCompare_iff hlength, P256.compact_second hs, hhalf]

/-- The signature with the lower of its second number and its negative. -/
theorem lowSSignatureChecked_eq (hs : 0 < s ∧ s < P256.order) :
    lowSSignatureChecked (P256.compact r s).1 =
      .ok (P256.compact r (min s (P256.order - s))).1 := by
  have horder : bigEndianValue order = P256.order := by decide +kernel
  have hlow := isLowS_iff (r := r) hs.2
  rw [lowSSignatureChecked, ensure_true _ (P256.compact r s).2, ok_bind]
  by_cases h : s ≤ P256.order / 2
  · rw [P256.min_negative_of_low h]
    simp [hlow.mpr h]
  · have hhigh : isLowS ((P256.compact r s).1.drop 32) = false := by
      rw [← Bool.not_eq_true, hlow]
      exact h
    have hlength : order.length = ((P256.compact r s).1.drop 32).length := by
      rw [P256.compact_drop, bigEndian_length]
      rfl
    have hle : bigEndianValue ((P256.compact r s).1.drop 32) ≤ bigEndianValue order := by
      rw [horder, P256.compact_second hs.2]
      exact hs.2.le
    have hsubtract := subtractChecked_eq hlength hle
    rw [horder, P256.compact_second hs.2] at hsubtract
    rw [P256.min_negative_of_high h]
    simp only [hhigh, Bool.false_eq_true, if_false, hsubtract, ok_bind, P256.compact_take]
    rfl

end Subtraction

section Unchecked

variable {raw result : List Byte}

private theorem subtractByte_eq_ok {pair : Byte × Byte} {state next : List Byte × ℤ}
    (h : subtractByte pair state = .ok next) :
    next = (let value : ℤ := pair.1.val - pair.2.val - state.2
      if value < 0 then (byte (value + 256).toNat :: state.1, 1)
      else (byte value.toNat :: state.1, 0)) := by
  simp only [subtractByte, bind_eq_ok, toUInt8, pure_eq_ok, Except.ok.injEq] at h
  obtain ⟨written, hwritten, rfl⟩ := h
  dsimp only
  by_cases hneg : (pair.1.val : ℤ) - pair.2.val - state.2 < 0
  · simp only [if_pos hneg] at hwritten ⊢
    split_ifs at hwritten
    rw [Except.ok.inj hwritten]
  · simp only [if_neg hneg] at hwritten ⊢
    split_ifs at hwritten
    rw [Except.ok.inj hwritten]

/-- A subtraction that does not trap is the plain one. -/
theorem subtract_of_checked {lhs rhs : List Byte} (h : subtractChecked lhs rhs = .ok result) :
    subtract lhs rhs = result := by
  simp only [subtractChecked, bind_eq_ok, ensure_eq_ok, exists_const, pure_eq_ok, Except.ok.injEq] at h
  obtain ⟨-, state, hrun, rfl⟩ := h
  refine congrArg Prod.fst ?_
  generalize lhs.zip rhs = pairs at hrun
  induction pairs generalizing state with
  | nil => exact Except.ok.inj hrun
  | cons pair pairs ih =>
      rw [List.foldrM_cons, bind_eq_ok] at hrun
      obtain ⟨before, hbefore, hbyte⟩ := hrun
      rw [List.foldr_cons, ih before hbefore]
      exact (subtractByte_eq_ok hbyte).symm

theorem lowSSignature_of_checked (h : lowSSignatureChecked raw = .ok result) :
    lowSSignature raw = .ok result := by
  simp only [lowSSignatureChecked, bind_eq_ok, ensure_eq_ok, exists_const] at h
  obtain ⟨hsize, h⟩ := h
  rw [lowSSignature, ensure_true _ hsize, ok_bind]
  dsimp only at h ⊢
  by_cases hlow : isLowS (raw.drop 32) = true
  · rw [if_pos hlow] at h ⊢
    exact h
  · rw [if_neg hlow] at h ⊢
    simp only [bind_eq_ok, pure_eq_ok, Except.ok.injEq] at h
    obtain ⟨difference, hdifference, rfl⟩ := h
    rw [subtract_of_checked hdifference]
    rfl

end Unchecked

end AgePluginPhone.Ios
