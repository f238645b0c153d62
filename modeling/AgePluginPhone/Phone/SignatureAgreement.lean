import AgePluginPhone.Android.SignatureEncoding
import AgePluginPhone.Core.EcdsaSignature
import AgePluginPhone.Ios.LowSSignature

/-!
# Signature normalization on the phones

Both phones turn the signatures of their platforms into the same fixed-width signatures, and all
three verifiers accept exactly one of a signature and its negative.
-/

namespace AgePluginPhone.Phone.SignatureAgreement

open Library Library.Cbor Library.Der Library.P256 AgePluginPhone.Android.SignatureEncoding

variable {r s : ℕ}

/-- The check of Kotlin's `verify` on the second number. -/
def AndroidPasses (signature : Bytes 64) : Prop :=
  verify order (fun _ => true) signature.1 = .ok ()

/-- The check of Swift's `verify`. -/
def IosPasses (signature : Bytes 64) : Prop :=
  signature.1.length = 64 ∧ Ios.isLowS (signature.1.drop 32) = true

/-- The checks of Rust's `verify`. -/
def DesktopPasses (signature : Bytes 64) : Prop :=
  ∃ found, Core.Ecdsa.checks signature = .ok found

def AllPass (signature : Bytes 64) : Prop :=
  AndroidPasses signature ∧ IosPasses signature ∧ DesktopPasses signature

def NonePasses (signature : Bytes 64) : Prop :=
  ¬ AndroidPasses signature ∧ ¬ IosPasses signature ∧ ¬ DesktopPasses signature

private theorem androidPasses_iff (hs : s < order) : AndroidPasses (compact r s) ↔ s ≤ order / 2 := by
  rw [AndroidPasses, verify, dif_pos (compact r s).2, bigInteger, compact_second hs]
  simp only [bind_eq_ok, ensure_eq_ok, exists_const, not_lt, and_true]

private theorem iosPasses_iff (hs : s < order) : IosPasses (compact r s) ↔ s ≤ order / 2 := by
  rw [IosPasses, Ios.isLowS_iff hs]
  exact and_iff_right (compact r s).2

private theorem desktopPasses_iff (hr : 0 < r ∧ r < order) (hs : 0 < s ∧ s < order) :
    DesktopPasses (compact r s) ↔ s ≤ order / 2 := by
  rw [← isLowS_compact hs.2, DesktopPasses]
  constructor
  · rintro ⟨found, hfound⟩
    exact (Core.Ecdsa.checks_eq_ok.mp hfound).2
  · intro h
    have hfound : Core.Ecdsa.fromSlice (compact r s).1 = some ⟨r, s, hr, hs⟩ :=
      Core.Ecdsa.fromSlice_eq_some.mpr ⟨compact_first hr.2, compact_second hs.2⟩
    exact ⟨_, Core.Ecdsa.checks_eq_ok.mpr ⟨hfound, h⟩⟩

private theorem allPass (hr : 0 < r ∧ r < order) (hs : 0 < s ∧ s < order)
    (hlow : s ≤ order / 2) : AllPass (compact r s) :=
  ⟨(androidPasses_iff hs.2).mpr hlow, (iosPasses_iff hs.2).mpr hlow, (desktopPasses_iff hr hs).mpr hlow⟩

private theorem nonePasses (hr : 0 < r ∧ r < order) (hs : 0 < s ∧ s < order)
    (hhigh : ¬ s ≤ order / 2) : NonePasses (compact r s) :=
  ⟨(androidPasses_iff hs.2).not.mpr hhigh, (iosPasses_iff hs.2).not.mpr hhigh,
    (desktopPasses_iff hr hs).not.mpr hhigh⟩

/-- The encodings of the phones, and what the verifiers accept. -/
theorem signature_normalisation (hr : 0 < r ∧ r < order) (hs : 0 < s ∧ s < order) :
    (∃ first second, ∃ total firstLength secondLength : Byte,
      IsInteger r first ∧ IsInteger s second ∧
      compactToDer (compact r s) = [0x30, total, 2, firstLength] ++ first ++
        ([2, secondLength] ++ second) ∧
      firstLength.val = first.length ∧ secondLength.val = second.length ∧
      total.val = 4 + first.length + second.length ∧ total.val < 128) ∧
    derToCompact (compactToDer (compact r s)) = .ok (compact r (min s (order - s))).1 ∧
    (s ≤ order / 2 → derToCompact (compactToDer (compact r s)) = .ok (compact r s).1) ∧
    Ios.lowSSignatureChecked (compact r s).1 = .ok (compact r (min s (order - s))).1 ∧
    ((AllPass (compact r s) ∧ NonePasses (compact r (order - s))) ∨
      (NonePasses (compact r s) ∧ AllPass (compact r (order - s)))) := by
  have hnegative := negative_range hs
  refine ⟨?_, derToCompact_compactToDer hr.2 hs.2, fun hle => ?_, ?_, ?_⟩
  · exact compactToDer_minimal hr.2 hs.2
  · rw [derToCompact_compactToDer hr.2 hs.2, min_negative_of_low hle]
  · exact Ios.lowSSignatureChecked_eq hs
  · by_cases hle : s ≤ order / 2
    · exact .inl ⟨allPass hr hs hle, nonePasses hr hnegative fun h => (negative_low hs).mp h hle⟩
    · exact .inr ⟨nonePasses hr hs hle, allPass hr hnegative ((negative_low hs).mpr hle)⟩

/-- A second number just below the order. -/
theorem signature_normalisation_sample :
    derToCompact (compactToDer (compact 1 (order - 1))) = .ok (compact 1 1).1 := by
  have hone : 0 < 1 ∧ 1 < order := by norm_num [order]
  have hlast : 0 < order - 1 ∧ order - 1 < order := by norm_num [order]
  have hmin : min (order - 1) (order - (order - 1)) = 1 := by norm_num [order]
  have h := (signature_normalisation hone hlast).2.1
  rwa [hmin] at h

end AgePluginPhone.Phone.SignatureAgreement
