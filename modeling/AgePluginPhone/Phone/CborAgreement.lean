import AgePluginPhone.Android.ProtocolBounds
import AgePluginPhone.Ios.StrictCborCodec

/-!
# Canonical CBOR on the phones

`ProtocolBounds.validateEncoded` and `StrictCBOR` accept the same grammar, but for the validity of
texts, which Android leaves to its tree reader, and integers above the limit of `Long`.
-/

namespace AgePluginPhone.Phone.CborAgreement

open Library Cbor AgePluginPhone.Android AgePluginPhone.Ios

/-- The messages that both phones accept: integers below 2^63, and texts in UTF-8. -/
def Common (bytes : List Byte) : Prop := Canonical (2 ^ 63) IsUtf8 128 17 bytes

/-- The two grammars meet in the common one. -/
private theorem common_iff {bytes : List Byte} (hsize : bytes.length < 2 ^ 64) :
    Canonical (2 ^ 63) (fun _ => True) 128 17 bytes ∧ Canonical (2 ^ 64) IsUtf8 128 17 bytes ↔
      Common bytes := by
  constructor
  · rintro ⟨hkotlin, hswift⟩
    have happend : bytes ++ [] = bytes ++ [] := rfl
    obtain ⟨-, hboth⟩ := Canonical.inter (by norm_num) (le_refl _) (by norm_num) hkotlin hswift hsize
      hsize happend
    exact hboth.mono (le_refl _) fun content hvalid => hvalid.2
  · intro h
    exact ⟨h.mono (le_refl _) fun _ _ => True.intro, h.mono (by norm_num) fun _ hvalid => hvalid⟩

private theorem swift_iff (bytes : List Byte) : (∃ value, StrictCbor.decodeDefault bytes = .ok value) ↔
    bytes.length ≤ 65536 ∧ Canonical (2 ^ 64) IsUtf8 128 17 bytes :=
  decode_isOk_iff (by norm_num) (by norm_num) (by norm_num)

/-- The walk over a message accepts exactly the canonical grammar, stays inside the array, and agrees
with iOS. -/
theorem validateEncoded_grammar (bytes : List Byte) :
    (ProtocolBounds.validateEncoded bytes = .ok () ↔
      bytes.length ≤ 65536 ∧ Canonical (2 ^ 63) (fun _ => True) 128 17 bytes) ∧
    (∀ failure, ProtocolBounds.validateEncoded bytes = .error failure →
      failure = .protocolException) ∧
    (ProtocolBounds.validateEncoded bytes = .ok () →
      ((∃ value, StrictCbor.decodeDefault bytes = .ok value) ↔ Common bytes)) ∧
    ((∃ value, StrictCbor.decodeDefault bytes = .ok value) →
      (ProtocolBounds.validateEncoded bytes = .ok () ↔ Common bytes)) := by
  have hkotlin : ProtocolBounds.validateEncoded bytes = .ok () ↔
      bytes.length ≤ 65536 ∧ Canonical (2 ^ 63) (fun _ => True) 128 17 bytes :=
    ProtocolBounds.validateEncoded_eq_ok
  refine ⟨hkotlin, fun failure => ProtocolBounds.validateEncoded_error, fun haccepted => ?_,
    fun haccepted => ?_⟩
  · obtain ⟨hsize, hgrammar⟩ := hkotlin.mp haccepted
    rw [swift_iff, ← common_iff (hsize.trans_lt (by norm_num))]
    simp only [hsize, hgrammar, true_and]
  · obtain ⟨hsize, hgrammar⟩ := (swift_iff bytes).mp haccepted
    rw [hkotlin, ← common_iff (hsize.trans_lt (by norm_num))]
    simp only [hsize, hgrammar, true_and, and_true]

end AgePluginPhone.Phone.CborAgreement
