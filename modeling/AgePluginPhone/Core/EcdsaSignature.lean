import AgePluginPhone.Core.Envelope

/-!
# Fixed-width signatures on the desktop

A signature is two numbers from one up to the group order. Its second number is normalized to the
lower of itself and its negative, and a signature that normalization changes is refused.
-/

namespace AgePluginPhone.Core

open Library Cbor

namespace Ecdsa

structure Signature where
  r : ℕ
  s : ℕ
  r_range : 0 < r ∧ r < P256.order
  s_range : 0 < s ∧ s < P256.order

/-- `Signature::from_slice`. -/
def fromSlice (bytes : List Byte) : Option Signature :=
  if bytes.length = 64 then
    if hr : 0 < bigEndianValue (bytes.take 32) ∧ bigEndianValue (bytes.take 32) < P256.order then
      if hs : 0 < bigEndianValue (bytes.drop 32) ∧ bigEndianValue (bytes.drop 32) < P256.order then
        some ⟨_, _, hr, hs⟩
      else none
    else none
  else none

/-- `normalize_s`, which returns nothing where it would change nothing. -/
def Signature.normalizeS (signature : Signature) : Option Signature :=
  if P256.order / 2 < signature.s then
    some ⟨signature.r, P256.order - signature.s, signature.r_range, by
      have h := signature.s_range
      omega⟩
  else none

/-- The checks of `verify` before the key is asked. -/
def checks (bytes : Bytes 64) : Except ProtocolError Signature := do
  let signature ← okOr (fromSlice bytes.1) .invalidSignature
  ensure (signature.normalizeS.isNone = true) .invalidSignature
  return signature

variable {bytes : Bytes 64} {signature : Signature}

theorem fromSlice_eq_some : fromSlice bytes.1 = some signature ↔
    bigEndianValue (bytes.1.take 32) = signature.r ∧ bigEndianValue (bytes.1.drop 32) = signature.s := by
  rw [fromSlice, if_pos bytes.2]
  constructor
  · intro h
    split_ifs at h with hr hs
    obtain rfl := Option.some.inj h
    exact ⟨rfl, rfl⟩
  · rintro ⟨hr, hs⟩
    have hr' := signature.r_range
    have hs' := signature.s_range
    rw [← hr] at hr'
    rw [← hs] at hs'
    rw [dif_pos hr', dif_pos hs', Option.some.injEq]
    cases signature
    simp only [Signature.mk.injEq]
    exact ⟨hr, hs⟩

/-- What passes is a signature in range with a low second number. -/
theorem checks_eq_ok : checks bytes = .ok signature ↔
    fromSlice bytes.1 = some signature ∧ P256.IsLowS bytes := by
  simp only [checks, bind_eq_ok, okOr_eq_ok, ensure_eq_ok, exists_const, pure_eq_ok, Except.ok.injEq]
  constructor
  · rintro ⟨found, hfound, hnone, rfl⟩
    refine ⟨hfound, ?_⟩
    rw [Signature.normalizeS] at hnone
    rw [P256.IsLowS, (fromSlice_eq_some.mp hfound).2]
    split_ifs at hnone with hhigh
    · simp at hnone
    · exact not_lt.mp hhigh
  · rintro ⟨hfound, hlow⟩
    refine ⟨signature, hfound, ?_, rfl⟩
    rw [P256.IsLowS, (fromSlice_eq_some.mp hfound).2] at hlow
    rw [Signature.normalizeS, if_neg (not_lt.mpr hlow)]
    rfl

end Ecdsa

end AgePluginPhone.Core
