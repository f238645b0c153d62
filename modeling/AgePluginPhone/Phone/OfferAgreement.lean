import AgePluginPhone.Core.MessageKinds
import AgePluginPhone.Phone.ResponseAgreement

/-!
# Agreement on pairing offers

Both phones verify the offers that the desktop's own verifier accepts, except those with a signing
key in its compact form.
-/

namespace AgePluginPhone.Phone.Envelope

open Library Cbor P256 AgePluginPhone.Core AgePluginPhone.Phone.Stanza

variable {C : Crates} {m : TextMinicbor} {K : Ios.CryptoKit}
  {J : Android.OfflineEnvelope.Provider} {b : List Byte}

/-- The bytes are those of an offer the desktop's verifier accepts, with a compressed signing key. -/
structure OfferAccepted (C : Crates) (m : TextMinicbor) (b : List Byte) (offer : SignedPairingOffer) :
    Prop where
  decoded : SignedPairingOffer.decode m b = .ok offer
  verified : SignedPairingOffer.verify C offer = .ok ()
  compressed : ∃ key, offer.payload.desktopSigningPublicKey = encodePublic C key

/-- The fields of an offer as Android's decoder keeps them. -/
structure AndroidReadsOffer (J : Android.OfflineEnvelope.Provider) (v : PairingOffer)
    (o : Android.OfflineEnvelope.PairingOffer J) : Prop where
  desktopId : o.desktopId = v.desktopId
  label : o.desktopLabel = v.desktopLabel
  signing : encodeCompressed (J.w o.desktopSigningPublicKey) = v.desktopSigningPublicKey
  selection : encodeCompressed (J.w o.desktopSelectionPublicKey) = v.desktopSelectionPublicKey
  nonce : o.nonce = v.nonce

/-- The fields of an offer as the decoder on iOS keeps them. -/
structure IosReadsOffer (K : Ios.CryptoKit) (v : PairingOffer) (o : Ios.VerifiedPairingOffer K) :
    Prop where
  desktopId : o.desktopId = v.desktopId
  label : o.desktopLabel = v.desktopLabel
  signing : Ios.compressed K o.desktopSigningPublicKey = v.desktopSigningPublicKey
  selection : Ios.compressed K o.desktopSelectionPublicKey = v.desktopSelectionPublicKey
  nonce : o.nonce = v.nonce

section Keys

theorem signing_of_compressed {bytes : EncodedPublicKey} {key found : C.PublicKey}
    (hkey : bytes = encodePublic C key) (hfound : C.fromSec1Bytes bytes = some found) :
    found = key := by
  have hsame : C.fromSec1Bytes bytes = some key := by
    rw [hkey]
    exact C.fromSec1Bytes_compressed key
  rw [hfound, Option.some.injEq] at hsame
  exact hsame

variable (hC : CratePoints C)

include hC

/-- Every key of a phone is one of the desktop's. -/
theorem crate_of_android (key : J.PublicKey) :
    ∃ found, C.uncompressedPoint found = encodeUncompressed (J.w key) ∧
      encodePublic C found = encodeCompressed (J.w key) := by
  obtain ⟨found, hfound⟩ := hC.isKey _ (J.w_onCurve key)
  exact ⟨found, hfound, encodePublic_of_point hfound⟩

theorem crate_of_ios (hK : KitPoints K) (key : K.PublicKey) :
    ∃ found, K.x963Representation key = C.uncompressedPoint found ∧
      encodePublic C found = Ios.compressed K key := by
  obtain ⟨point, hpoint, hkey⟩ := hK.onCurve key
  obtain ⟨found, hfound⟩ := hC.isKey point hpoint
  exact ⟨found, hkey.trans hfound.symm,
    (encodePublic_of_point hfound).trans (compressed_of_point hkey).symm⟩

theorem android_of_crate (key : C.PublicKey) :
    ∃ found : J.PublicKey, C.uncompressedPoint key = encodeUncompressed (J.w found) ∧
      encodeCompressed (J.w found) = encodePublic C key := by
  obtain ⟨point, hpoint, hkey⟩ := hC.onCurve key
  obtain ⟨found, rfl⟩ := exists_android J.toJca hpoint
  exact ⟨found, hkey, (encodePublic_of_point hkey).symm⟩

theorem ios_of_crate (hK : KitPoints K) (key : C.PublicKey) :
    ∃ found : K.PublicKey, K.x963Representation found = C.uncompressedPoint key ∧
      Ios.compressed K found = encodePublic C key := by
  obtain ⟨point, hpoint, hkey⟩ := hC.onCurve key
  obtain ⟨found, hfound⟩ := hK.isKey point hpoint
  exact ⟨found, hfound.trans hkey.symm,
    (compressed_of_point hfound).trans (encodePublic_of_point hkey).symm⟩

end Keys

section Offers

private theorem ios_offerDigest (hsame : SameVerifiers C K J) :
    Ios.digest K Ios.offerDigestDomain b = hash C offerDigest b := by
  rw [Ios.digest, hsame.iosHash]
  rfl

private theorem android_offerDigest (hsame : SameVerifiers C K J) :
    Android.OfflineEnvelope.digest J Android.OfflineEnvelope.offerDigestDomain b =
      hash C offerDigest b := by
  rw [Android.OfflineEnvelope.digest, hsame.androidHash]
  rfl

/-- The verifier on iOS accepts exactly these offers. -/
theorem ios_verifyPairingOffer_eq_ok (hC : CratePoints C) (hK : KitPoints K)
    (hsame : SameVerifiers C K J) {o : Ios.VerifiedPairingOffer K} :
    Ios.verifyPairingOffer K b = .ok o ↔ ∃ offer, OfferAccepted C m b offer ∧
      IosReadsOffer K offer.payload o ∧ o.encoded = b ∧ o.digest = hash C offerDigest b := by
  constructor
  · intro h
    simp only [Ios.verifyPairingOffer, bind_eq_ok] at h
    obtain ⟨⟨payload, signature⟩, hsigned, values, hvalues, _, hheader, h⟩ := h
    obtain ⟨rfl, hsize⟩ := ios_decodeSigned_eq_ok.mp hsigned
    obtain ⟨hpayload, -, -⟩ := ios_encode_of_exactArray (Ios.cbor_eq_ok.mp hvalues)
    dsimp only at hpayload
    split at h
    · have hitems := ios_header_eq_ok.mp (show Ios.header _ offerKind.val = .ok _ from hheader)
      simp only [bind_eq_ok, ensure_eq_ok, exists_const, Ios.cbor_eq_ok,
        Ios.StrictCbor.exactBytes_eq_ok, ios_boundedText_eq_ok, ios_verify_eq_ok, pure_eq_ok,
        Except.ok.injEq, Ios.StanzaOpening.publicKey_eq_ok_iff] at h
      obtain ⟨desktopId, rfl, label, ⟨rfl, hlabel⟩, _, rfl, _, rfl, hne, signing, rfl,
        ⟨hlow, hverify⟩, selection, rfl, nonce, rfl, rfl⟩ := h
      let v : PairingOffer := ⟨desktopId, label, Ios.compressed K signing, Ios.compressed K selection,
        nonce⟩
      obtain rfl : payload = encodeOffer v := by
        rw [hpayload, hitems, ← encode_offerItems]
        rfl
      obtain ⟨signingKey, hsigning, hsigningBytes⟩ := crate_of_ios hC hK signing
      obtain ⟨selectionKey, -, hselectionBytes⟩ := crate_of_ios hC hK selection
      have hfound : C.fromSec1Bytes v.desktopSigningPublicKey = some signingKey := by
        rw [show v.desktopSigningPublicKey = Ios.compressed K signing from rfl, ← hsigningBytes]
        exact C.fromSec1Bytes_compressed signingKey
      have hcrate := hsame.iosVerify signingKey signing hsigning
        (domainInput offerSig (encodeOffer v)) signature
      refine ⟨⟨v, signature⟩, ⟨?_, ?_, signingKey, hsigningBytes.symm⟩, ⟨rfl, rfl, rfl, rfl, rfl⟩,
        rfl, ios_offerDigest hsame⟩
      · exact SignedPairingOffer.decode_eq_ok.mpr ⟨rfl, hsize, hlabel⟩
      · exact SignedPairingOffer.verify_eq_ok.mpr ⟨hlabel, ⟨selectionKey, hselectionBytes.symm⟩,
          fun heq => hne heq.symm, signingKey, hfound, hlow, hcrate.symm.trans hverify⟩
    · cases h
  · rintro ⟨⟨v, signature⟩, h, ho, hencoded, hdigest⟩
    obtain ⟨rfl, hsize, -⟩ := SignedPairingOffer.decode_eq_ok.mp h.decoded
    obtain ⟨hlabel, -, hne, signingKey, hfound, hlow, hverify⟩ :=
      SignedPairingOffer.verify_eq_ok.mp h.verified
    obtain ⟨key, hkey⟩ := h.compressed
    have hsigningKey : K.x963Representation o.desktopSigningPublicKey =
        C.uncompressedPoint signingKey := by
      rw [signing_of_compressed hkey hfound]
      exact ios_point hC hK (ho.signing.trans hkey)
    rw [Core.hash, ← hsame.iosVerify signingKey _ hsigningKey] at hverify
    have hread := ios_exactArray_decode (offer_readable v)
      (by rw [encode_offerItems]; exact (payload_length_le _ signature).trans hsize)
    rw [encode_offerItems] at hread
    have hheader : Ios.header (offerItems v) offerKind.val = .ok () := ios_header_eq_ok.mpr rfl
    simp only [Ios.verifyPairingOffer, bind_eq_ok]
    refine ⟨_, ios_decodeSigned_eq_ok.mpr ⟨rfl, hsize⟩, _, Ios.cbor_eq_ok.mpr hread, (), hheader, ?_⟩
    simp only [offerItems, headerItems, List.cons_append, List.nil_append, bind_eq_ok, ensure_eq_ok,
      Ios.cbor_eq_ok, Ios.StrictCbor.exactBytes_eq_ok, ios_boundedText_eq_ok, ios_verify_eq_ok,
      pure_eq_ok, Except.ok.injEq, Ios.StanzaOpening.publicKey_eq_ok_iff]
    refine ⟨v.desktopId, rfl, v.desktopLabel, ⟨rfl, hlabel⟩, v.desktopSigningPublicKey, rfl,
      v.desktopSelectionPublicKey, rfl, (), fun heq => hne heq.symm, o.desktopSigningPublicKey,
      ho.signing.symm, (), ⟨hlow, hverify⟩, o.desktopSelectionPublicKey, ho.selection.symm, v.nonce,
      rfl, ?_⟩
    obtain ⟨desktopId, label, signing, selection, nonce, encoded, digest⟩ := o
    obtain ⟨rfl, rfl, -, -, rfl⟩ := ho
    obtain rfl := hencoded
    obtain rfl := hdigest.trans (ios_offerDigest hsame).symm
    rfl

theorem android_encodeCompressed (key : J.PublicKey) :
    Android.OfflineEnvelope.encodeCompressed J key = .ok (encodeCompressed (J.w key)).1 := by
  rw [Android.OfflineEnvelope.encodeCompressed, Android.TaggedRecipientCrypto.encodeCompressed_eq]
  rfl

theorem android_decodePairingOfferPayload_eq_ok {payload : List Byte}
    {o : Android.OfflineEnvelope.PairingOffer J} :
    Android.OfflineEnvelope.decodePairingOfferPayload J payload = .ok o ↔ ∃ v : PairingOffer,
      payload = encodeOffer v ∧ payload.length ≤ 65536 ∧ (utf8 v.desktopLabel).length ≤ 64 ∧
      AndroidReadsOffer J v o := by
  constructor
  · intro h
    simp only [Android.OfflineEnvelope.decodePairingOfferPayload, bind_eq_ok] at h
    obtain ⟨values, hvalues, _, hheader, h⟩ := h
    obtain ⟨hpayload, -, hsize⟩ := android_encode_of_strictArray hvalues
    split at h
    · have hitems := android_header_eq_ok.mp
        (show Android.OfflineEnvelope.header _ offerKind.val = .ok _ from hheader)
      simp only [bind_eq_ok, android_bytes_eq_ok, android_text_eq_ok, pure_eq_ok,
        Except.ok.injEq] at h
      obtain ⟨desktopId, rfl, label, ⟨rfl, hlabel⟩, _, rfl, signing, hsigning, _, rfl, selection,
        hselection, nonce, rfl, rfl⟩ := h
      obtain rfl := android_decodeCompressed_eq_ok.mp hsigning
      obtain rfl := android_decodeCompressed_eq_ok.mp hselection
      refine ⟨⟨desktopId, label, encodeCompressed (J.w signing), encodeCompressed (J.w selection),
        nonce⟩, ?_, hsize, hlabel, ⟨rfl, rfl, rfl, rfl, rfl⟩⟩
      rw [hpayload, hitems, ← encode_offerItems]
      rfl
    · cases h
  · rintro ⟨v, rfl, hsize, hlabel, ho⟩
    have hread := android_strictArray_encode (J := J) (offer_readable v)
      (by rw [encode_offerItems]; exact hsize)
    rw [encode_offerItems] at hread
    have hheader : Android.OfflineEnvelope.header (offerItems v) offerKind.val = .ok () :=
      android_header_eq_ok.mpr rfl
    have hsigning : Android.OfflineEnvelope.decodeCompressed J v.desktopSigningPublicKey =
        .ok o.desktopSigningPublicKey := android_decodeCompressed_eq_ok.mpr ho.signing
    have hselection : Android.OfflineEnvelope.decodeCompressed J v.desktopSelectionPublicKey =
        .ok o.desktopSelectionPublicKey := android_decodeCompressed_eq_ok.mpr ho.selection
    simp only [Android.OfflineEnvelope.decodePairingOfferPayload, bind_eq_ok]
    refine ⟨_, hread, (), hheader, ?_⟩
    simp only [offerItems, headerItems, List.cons_append, List.nil_append, bind_eq_ok,
      android_bytes_eq_ok, android_text_eq_ok, pure_eq_ok, Except.ok.injEq]
    refine ⟨v.desktopId, rfl, v.desktopLabel, ⟨rfl, hlabel⟩, v.desktopSigningPublicKey, rfl,
      o.desktopSigningPublicKey, hsigning, v.desktopSelectionPublicKey, rfl,
      o.desktopSelectionPublicKey, hselection, v.nonce, rfl, ?_⟩
    obtain ⟨desktopId, label, signing, selection, nonce⟩ := o
    obtain ⟨rfl, rfl, -, -, rfl⟩ := ho
    rfl

/-- The verifier on Android accepts exactly these offers. -/
theorem android_verifyPairingOffer_eq_ok (hC : CratePoints C) (hsame : SameVerifiers C K J)
    {o : Android.OfflineEnvelope.VerifiedPairingOffer J} :
    Android.OfflineEnvelope.verifyPairingOffer J b = .ok o ↔ ∃ offer, OfferAccepted C m b offer ∧
      AndroidReadsOffer J offer.payload o.offer ∧ o.encoded = b ∧ o.digest = hash C offerDigest b := by
  simp only [Android.OfflineEnvelope.verifyPairingOffer, android_encodeCompressed, ok_bind,
    bind_eq_ok, ensure_eq_ok, exists_const, pure_eq_ok, Except.ok.injEq]
  constructor
  · rintro ⟨⟨payload, signature⟩, hsigned, found, hfound, hne, _, hverify, rfl⟩
    obtain ⟨rfl, hsize⟩ := android_decodeSigned_eq_ok.mp hsigned
    obtain ⟨v, rfl, -, hlabel, ho⟩ := android_decodePairingOfferPayload_eq_ok.mp hfound
    obtain ⟨hlow, hverify⟩ := android_verify_eq_ok.mp hverify
    obtain ⟨signingKey, hsigning, hsigningBytes⟩ := crate_of_android hC found.desktopSigningPublicKey
    obtain ⟨selectionKey, -, hselectionBytes⟩ :=
      crate_of_android hC found.desktopSelectionPublicKey
    have hcrate := hsame.androidVerify signingKey _ hsigning
      (domainInput offerSig (encodeOffer v)) signature
    have hkey : C.fromSec1Bytes v.desktopSigningPublicKey = some signingKey := by
      rw [← ho.signing, ← hsigningBytes]
      exact C.fromSec1Bytes_compressed signingKey
    refine ⟨⟨v, signature⟩, ⟨?_, ?_, signingKey, ?_⟩, ho, rfl, android_offerDigest hsame⟩
    · exact SignedPairingOffer.decode_eq_ok.mpr ⟨rfl, hsize, hlabel⟩
    · refine SignedPairingOffer.verify_eq_ok.mpr ⟨hlabel, ⟨selectionKey, ?_⟩, ?_, signingKey, hkey,
        hlow, hcrate.symm.trans hverify⟩
      · exact ho.selection.symm.trans hselectionBytes.symm
      · intro heq
        apply hne
        rw [ho.signing, ho.selection, heq]
    · exact ho.signing.symm.trans hsigningBytes.symm
  · rintro ⟨⟨v, signature⟩, h, ho, hencoded, hdigest⟩
    obtain ⟨rfl, hsize, -⟩ := SignedPairingOffer.decode_eq_ok.mp h.decoded
    obtain ⟨hlabel, -, hne, signingKey, hfound, hlow, hverify⟩ :=
      SignedPairingOffer.verify_eq_ok.mp h.verified
    obtain ⟨key, hkey⟩ := h.compressed
    have hsigningKey : C.uncompressedPoint signingKey =
        encodeUncompressed (J.w o.offer.desktopSigningPublicKey) := by
      rw [signing_of_compressed hkey hfound]
      exact android_point hC (ho.signing.trans hkey)
    rw [Core.hash, ← hsame.androidVerify signingKey _ hsigningKey] at hverify
    refine ⟨⟨encodeOffer v, signature⟩, android_decodeSigned_eq_ok.mpr ⟨rfl, hsize⟩, o.offer,
      android_decodePairingOfferPayload_eq_ok.mpr
        ⟨v, rfl, (payload_length_le _ signature).trans hsize, hlabel, ho⟩, ?_, (),
      android_verify_eq_ok.mpr ⟨hlow, hverify⟩, ?_⟩
    · intro heq
      apply hne
      rw [← ho.selection, ← ho.signing]
      exact Subtype.ext heq.symm
    · obtain ⟨offer, encoded, digest⟩ := o
      obtain rfl := hencoded
      obtain rfl := hdigest.trans (android_offerDigest hsame).symm
      rfl

end Offers

section Agreement

theorem decode_encode_offer {offer : SignedPairingOffer}
    (hlabel : (utf8 offer.payload.desktopLabel).length ≤ 64) :
    SignedPairingOffer.decode m (SignedPairingOffer.encode offer) = .ok offer := by
  have hkind : MessageKind.offer.Valid (Crates.ofTable emptyTable) offer.payload := hlabel
  exact MessageKind.decode_encode hkind

/-- An offer that a desktop signs with a compressed key. -/
theorem accepted_of_sign {payload : PairingOffer} {signer : P256Signer} {key : C.PublicKey}
    {offer : SignedPairingOffer} (hsigner : signer.Ideal C)
    (hkey : signer.publicKey = .ok (encodePublic C key))
    (hsign : SignedPairingOffer.sign C payload signer = .ok offer) :
    OfferAccepted C m (SignedPairingOffer.encode offer) offer := by
  simp only [SignedPairingOffer.sign, bind_eq_ok, ensure_eq_ok, exists_const, label_eq_ok, hkey,
    Except.ok.injEq, exists_eq_left', publicKey_eq_ok, pure_eq_ok] at hsign
  obtain ⟨hlabel, hsigning, selection, hselection, hne, signature, hsignature, rfl⟩ := hsign
  obtain ⟨hlow, found, hfound, hverify⟩ := hsigner _ _ _ hkey hsignature
  rw [hsigning] at hfound
  refine ⟨decode_encode_offer hlabel, ?_, key, hsigning.symm⟩
  exact SignedPairingOffer.verify_eq_ok.mpr ⟨hlabel, ⟨selection, hselection⟩, hne, found, hfound, hlow,
    hverify⟩

theorem ios_readings (hC : CratePoints C) (hK : KitPoints K) {offer : SignedPairingOffer}
    (h : OfferAccepted C m b offer) : ∃ o : Ios.VerifiedPairingOffer K,
      IosReadsOffer K offer.payload o ∧ o.encoded = b ∧ o.digest = hash C offerDigest b := by
  obtain ⟨signing, hsigning⟩ := h.compressed
  obtain ⟨-, ⟨selection, hselection⟩, -⟩ := SignedPairingOffer.verify_eq_ok.mp h.verified
  obtain ⟨kitSigning, -, hkitSigning⟩ := ios_of_crate hC hK signing
  obtain ⟨kitSelection, -, hkitSelection⟩ := ios_of_crate hC hK selection
  exact ⟨⟨offer.payload.desktopId, offer.payload.desktopLabel, kitSigning, kitSelection,
      offer.payload.nonce, b, hash C offerDigest b⟩,
    ⟨rfl, rfl, hkitSigning.trans hsigning.symm, hkitSelection.trans hselection.symm, rfl⟩, rfl, rfl⟩

theorem android_readings (hC : CratePoints C) {offer : SignedPairingOffer}
    (h : OfferAccepted C m b offer) : ∃ o : Android.OfflineEnvelope.VerifiedPairingOffer J,
      AndroidReadsOffer J offer.payload o.offer ∧ o.encoded = b ∧ o.digest = hash C offerDigest b := by
  obtain ⟨signing, hsigning⟩ := h.compressed
  obtain ⟨-, ⟨selection, hselection⟩, -⟩ := SignedPairingOffer.verify_eq_ok.mp h.verified
  obtain ⟨javaSigning, -, hjavaSigning⟩ := android_of_crate (J := J) hC signing
  obtain ⟨javaSelection, -, hjavaSelection⟩ := android_of_crate (J := J) hC selection
  exact ⟨⟨⟨offer.payload.desktopId, offer.payload.desktopLabel, javaSigning, javaSelection,
      offer.payload.nonce⟩, b, hash C offerDigest b⟩,
    ⟨rfl, rfl, hjavaSigning.trans hsigning.symm, hjavaSelection.trans hselection.symm, rfl⟩, rfl, rfl⟩

/-- The phones verify exactly the offers with a compressed signing key that the desktop's own
verifier accepts, with the same digest, and read their fields. They are those that a desktop with
such a key makes. -/
theorem offer_agreement (hC : CratePoints C) (hK : KitPoints K) (hsame : SameVerifiers C K J) :
    (∀ payload signer key offer, signer.Ideal C → signer.publicKey = .ok (encodePublic C key) →
      SignedPairingOffer.sign C payload signer = .ok offer →
      OfferAccepted C m (SignedPairingOffer.encode offer) offer) ∧
    (∀ offer, OfferAccepted C m b offer →
      (∃ o, Ios.verifyPairingOffer K b = .ok o ∧ IosReadsOffer K offer.payload o ∧ o.encoded = b ∧
        o.digest = SignedPairingOffer.digest C offer) ∧
      ∃ o, Android.OfflineEnvelope.verifyPairingOffer J b = .ok o ∧
        AndroidReadsOffer J offer.payload o.offer ∧ o.encoded = b ∧
        o.digest = SignedPairingOffer.digest C offer) ∧
    (∀ o, Ios.verifyPairingOffer K b = .ok o →
      ∃ offer, OfferAccepted C m b offer ∧ IosReadsOffer K offer.payload o) ∧
    ∀ o, Android.OfflineEnvelope.verifyPairingOffer J b = .ok o →
      ∃ offer, OfferAccepted C m b offer ∧ AndroidReadsOffer J offer.payload o.offer := by
  refine ⟨fun payload signer key offer => accepted_of_sign, ?_, ?_, ?_⟩
  · intro offer h
    obtain ⟨hencode, -⟩ := SignedPairingOffer.decode_eq_ok.mp h.decoded
    have hdigest : hash C offerDigest b = SignedPairingOffer.digest C offer := by
      rw [hencode]
      rfl
    obtain ⟨i, hi, hiEncoded, hiDigest⟩ := ios_readings hC hK h
    obtain ⟨a, ha, haEncoded, haDigest⟩ := android_readings (J := J) hC h
    exact ⟨⟨i, (ios_verifyPairingOffer_eq_ok hC hK hsame).mpr ⟨offer, h, hi, hiEncoded, hiDigest⟩,
        hi, hiEncoded, hiDigest.trans hdigest⟩,
      a, (android_verifyPairingOffer_eq_ok hC hsame).mpr ⟨offer, h, ha, haEncoded, haDigest⟩,
        ha, haEncoded, haDigest.trans hdigest⟩
  · intro o h
    obtain ⟨offer, haccepted, ho, -⟩ := (ios_verifyPairingOffer_eq_ok hC hK hsame).mp h
    exact ⟨offer, haccepted, ho⟩
  · intro o h
    obtain ⟨offer, haccepted, ho, -⟩ := (android_verifyPairingOffer_eq_ok hC hsame).mp h
    exact ⟨offer, haccepted, ho⟩

/-- The functions of the sample pairing, with the fingerprint of its transcript. -/
def pairingTable : CryptoTable :=
  { sampleTable false with
    digests := (sampleTable false).digests ++ [(domainInput fingerprint
      (SignedPairingOffer.encode (sampleOffer false) ++
        SignedPairingResponse.encode (sampleResponse false)),
      0x75fe694e8f9d0052213b8a633c307a23f61efa1b3261be6164386b438c6d91ce)] }

/-- The sample offer is accepted by its own desktop. -/
theorem sampleOffer_accepted : OfferAccepted (Crates.ofTable pairingTable) .definite
    (SignedPairingOffer.encode (sampleOffer false)) (sampleOffer false) := by
  have hlabel : (utf8 "laptop").length ≤ 64 := by decide +kernel
  refine ⟨decode_encode_offer hlabel, by decide +kernel, desktopSigningPoint, ?_⟩
  exact (encodePublic_ofTable _ _).symm

/-- The sample offer, verified by both phones. -/
theorem offer_agreement_sample :
    (∃ o, Ios.verifyPairingOffer (kitOfTable pairingTable)
        (SignedPairingOffer.encode (sampleOffer false)) = .ok o ∧ o.desktopLabel = "laptop") ∧
      ∃ o, Android.OfflineEnvelope.verifyPairingOffer (providerOfTable pairingTable)
        (SignedPairingOffer.encode (sampleOffer false)) = .ok o ∧ o.offer.desktopLabel = "laptop" := by
  have hagreement := offer_agreement (m := .definite)
    (b := SignedPairingOffer.encode (sampleOffer false)) (ofTable_points pairingTable)
    (kitOfTable_points pairingTable) (ofTable_sameVerifiers pairingTable)
  obtain ⟨⟨i, hios, hi, -⟩, a, handroid, ha, -⟩ := hagreement.2.1 _ sampleOffer_accepted
  exact ⟨⟨i, hios, hi.label⟩, a, handroid, ha.label⟩

end Agreement

end AgePluginPhone.Phone.Envelope
