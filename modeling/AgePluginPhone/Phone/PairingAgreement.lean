import AgePluginPhone.Desktop.PairingSession
import AgePluginPhone.Phone.OfferAgreement
import AgePluginPhone.Phone.RecipientAgreement

/-!
# Agreement on pairing responses

Android verifies the responses that the desktop accepts for an offer. The desktop accepts what
either phone makes for it, and the two display one fingerprint.
-/

namespace AgePluginPhone.Phone.Envelope

open Library Cbor P256 AgePluginPhone.Core AgePluginPhone.Phone.Stanza

variable {C : Crates} {m : TextMinicbor} {K : Ios.CryptoKit}
  {J : Android.OfflineEnvelope.Provider} {b : List Byte} {offer : SignedPairingOffer}

/-- The bytes are those of a response the desktop accepts for its offer, with a compressed signing
key. -/
structure ResponseAccepted (C : Crates) (m : TextMinicbor) (offer : SignedPairingOffer)
    (b : List Byte) (response : SignedPairingResponse) : Prop where
  decoded : SignedPairingResponse.decode C m b = .ok response
  verified : SignedPairingResponse.verify C response offer = .ok ()
  compressed : ∃ key, response.payload.phoneSigningPublicKey = encodePublic C key

/-- The fields of a response as Android's decoder keeps them. -/
structure AndroidReadsResponse (J : Android.OfflineEnvelope.Provider) (v : PairingResponse)
    (r : Android.OfflineEnvelope.PairingResponse J) : Prop where
  identityId : r.identityId = v.identityId
  recipient : r.recipient = v.recipient
  signing : encodeCompressed (J.w r.phoneSigningPublicKey) = v.phoneSigningPublicKey
  offerDigest : r.offerDigest = v.offerDigest
  nonce : r.nonce = v.nonce

section Payload

variable (hC : CratePoints C)

include hC

theorem android_decodeRecipient_eq_ok {text : String} {key : J.PublicKey} :
    Android.TaggedRecipientCrypto.decodeRecipient J.toJca J.lowercase text = .ok key ↔
      ∃ found, text = Recipient.toString C found ∧
        C.uncompressedPoint found = encodeUncompressed (J.w key) := by
  rw [Android.TaggedRecipientCrypto.decodeRecipient_eq_ok J.lowercase_ascii]
  constructor
  · intro h
    obtain ⟨found, hfound⟩ := hC.isKey _ (J.w_onCurve key)
    rw [Recipients.android_recipient hfound, Except.ok.injEq] at h
    exact ⟨found, h.symm, hfound⟩
  · rintro ⟨found, rfl, hfound⟩
    exact Recipients.android_recipient hfound

theorem android_decodePairingResponsePayload_eq_ok {payload : List Byte}
    {r : Android.OfflineEnvelope.PairingResponse J} :
    Android.OfflineEnvelope.decodePairingResponsePayload J payload = .ok r ↔
      ∃ v : PairingResponse, payload = encodePairingResponse v ∧ payload.length ≤ 65536 ∧
        (∃ identity, v.recipient = Recipient.toString C identity) ∧ AndroidReadsResponse J v r := by
  constructor
  · intro h
    simp only [Android.OfflineEnvelope.decodePairingResponsePayload, bind_eq_ok] at h
    obtain ⟨values, hvalues, _, hheader, h⟩ := h
    obtain ⟨hpayload, -, hsize⟩ := android_encode_of_strictArray hvalues
    split at h
    · have hitems := android_header_eq_ok.mp
        (show Android.OfflineEnvelope.header _ pairingResponseKind.val = .ok _ from hheader)
      simp only [bind_eq_ok, mapError_ok, android_decodeRecipient_eq_ok hC, android_bytes_eq_ok,
        android_text_eq_ok, pure_eq_ok, Except.ok.injEq] at h
      obtain ⟨recipient, ⟨rfl, -⟩, _, ⟨identity, hidentity, -⟩, identityId, rfl, _, rfl, signing,
        hsigning, offerDigest, rfl, nonce, rfl, rfl⟩ := h
      obtain rfl := android_decodeCompressed_eq_ok.mp hsigning
      refine ⟨⟨identityId, recipient, encodeCompressed (J.w signing), offerDigest, nonce⟩, ?_, hsize,
        ⟨identity, hidentity⟩, ⟨rfl, rfl, rfl, rfl, rfl⟩⟩
      rw [hpayload, hitems, ← encode_pairingResponseItems]
      rfl
    · cases h
  · rintro ⟨v, rfl, hsize, ⟨identity, hidentity⟩, hr⟩
    have hread := android_strictArray_encode (J := J) (pairingResponse_readable v)
      (by rw [encode_pairingResponseItems]; exact hsize)
    rw [encode_pairingResponseItems] at hread
    have hheader : Android.OfflineEnvelope.header (pairingResponseItems v) pairingResponseKind.val =
        .ok () := android_header_eq_ok.mpr rfl
    have hlength : (utf8 v.recipient).length ≤ 160 := by
      rw [hidentity, Recipient.toString_length]
      decide
    obtain ⟨key, hkey, -⟩ := android_of_crate (J := J) hC identity
    have hsigning : Android.OfflineEnvelope.decodeCompressed J v.phoneSigningPublicKey =
        .ok r.phoneSigningPublicKey := android_decodeCompressed_eq_ok.mpr hr.signing
    simp only [Android.OfflineEnvelope.decodePairingResponsePayload, bind_eq_ok]
    refine ⟨_, hread, (), hheader, ?_⟩
    simp only [pairingResponseItems, headerItems, List.cons_append, List.nil_append, bind_eq_ok,
      mapError_ok, android_decodeRecipient_eq_ok hC, android_bytes_eq_ok, android_text_eq_ok,
      pure_eq_ok, Except.ok.injEq]
    refine ⟨v.recipient, ⟨rfl, hlength⟩, key, ⟨identity, hidentity, hkey⟩, v.identityId, rfl,
      v.phoneSigningPublicKey, rfl, r.phoneSigningPublicKey, hsigning, v.offerDigest, rfl, v.nonce,
      rfl, ?_⟩
    obtain ⟨identityId, recipient, signing, offerDigest, nonce⟩ := r
    obtain ⟨rfl, rfl, -, rfl, rfl⟩ := hr
    rfl

end Payload

section Verification

/-- The keys of a phone differ from each other and from those of the desktop. -/
structure KeysApart (C : Crates) (offer : PairingOffer) (identity : C.PublicKey)
    (phone : EncodedPublicKey) : Prop where
  own : encodePublic C identity ≠ phone
  identity : encodePublic C identity ≠ offer.desktopSigningPublicKey ∧
    encodePublic C identity ≠ offer.desktopSelectionPublicKey
  phone : phone ≠ offer.desktopSigningPublicKey ∧ phone ≠ offer.desktopSelectionPublicKey

/-- What a desktop that made the offer checks of a response, without its signature. -/
structure ResponseFits (C : Crates) (offer : SignedPairingOffer) (v : PairingResponse)
    (identity : C.PublicKey) : Prop where
  recipient : v.recipient = Recipient.toString C identity
  apart : KeysApart C offer.payload identity v.phoneSigningPublicKey
  digest : v.offerDigest = SignedPairingOffer.digest C offer

theorem responseAccepted_iff (hoffer : SignedPairingOffer.verify C offer = .ok ())
    {response : SignedPairingResponse} :
    ResponseAccepted C m offer b response ↔
      b = SignedPairingResponse.encode response ∧ b.length ≤ 65536 ∧
      (∃ identity, ResponseFits C offer response.payload identity) ∧
      ∃ key, response.payload.phoneSigningPublicKey = encodePublic C key ∧
        IsLowS response.signature ∧ C.verifyPrehash key
          (hash C pairingSig (encodePairingResponse response.payload)) response.signature = true := by
  constructor
  · intro h
    obtain ⟨hencode, hsize, -⟩ := SignedPairingResponse.decode_eq_ok.mp h.decoded
    obtain ⟨-, ⟨identity, hrecipient, hown, hdesktop⟩, hdigest, found, hfound, hlow, hverify⟩ :=
      SignedPairingResponse.verify_eq_ok.mp h.verified
    obtain ⟨key, hkey⟩ := h.compressed
    obtain rfl := signing_of_compressed hkey hfound
    simp only [List.forall_mem_cons, List.not_mem_nil, false_implies, implies_true,
      and_true] at hdesktop
    exact ⟨hencode, hsize, ⟨identity, hrecipient, ⟨hown, hdesktop.1, hdesktop.2⟩, hdigest⟩, found, hkey,
      hlow, hverify⟩
  · rintro ⟨hencode, hsize, ⟨identity, hfits⟩, key, hkey, hlow, hverify⟩
    have hfound : C.fromSec1Bytes response.payload.phoneSigningPublicKey = some key := by
      rw [hkey]
      exact C.fromSec1Bytes_compressed key
    have hdesktop : ∀ bytes ∈ [encodePublic C identity, response.payload.phoneSigningPublicKey],
        bytes ≠ offer.payload.desktopSigningPublicKey ∧
          bytes ≠ offer.payload.desktopSelectionPublicKey := by
      simp only [List.forall_mem_cons, List.not_mem_nil, false_implies, implies_true, and_true]
      exact ⟨hfits.apart.identity, hfits.apart.phone⟩
    refine ⟨SignedPairingResponse.decode_eq_ok.mpr ⟨hencode, hsize, ?_⟩, ?_, key, hkey⟩
    · exact validatePairingResponse_eq_ok.mpr
        ⟨identity, hfits.recipient, ⟨key, hfound⟩, hfits.apart.own⟩
    · exact SignedPairingResponse.verify_eq_ok.mpr ⟨hoffer,
        ⟨identity, hfits.recipient, hfits.apart.own, hdesktop⟩, hfits.digest, key, hfound, hlow,
        hverify⟩

/-- The verifier on Android accepts exactly these responses to an offer. -/
theorem android_verifyPairingResponse_eq_ok (hC : CratePoints C) (hsame : SameVerifiers C K J)
    {o : Android.OfflineEnvelope.VerifiedPairingOffer J}
    (hoffer : SignedPairingOffer.verify C offer = .ok ())
    (ho : AndroidReadsOffer J offer.payload o.offer)
    (hdigest : o.digest = SignedPairingOffer.digest C offer)
    {r : Android.OfflineEnvelope.VerifiedPairingResponse J} :
    Android.OfflineEnvelope.verifyPairingResponse J b o = .ok r ↔
      ∃ response, ResponseAccepted C m offer b response ∧
        AndroidReadsResponse J response.payload r.response ∧ r.encoded = b := by
  simp only [Android.OfflineEnvelope.verifyPairingResponse, android_encodeCompressed, ok_bind,
    bind_eq_ok, ensure_eq_ok, exists_const, pure_eq_ok, Except.ok.injEq, mapError_ok,
    android_decodeRecipient_eq_ok hC, responseAccepted_iff hoffer]
  constructor
  · rintro ⟨⟨payload, signature⟩, hsigned, found, hfound, hanswers, javaIdentity,
      ⟨identity, hrecipient, hpoint⟩, ⟨hown, hsigning, hselection, hphoneSigning, hphoneSelection⟩, _,
      hverify, rfl⟩
    obtain ⟨rfl, hsize⟩ := android_decodeSigned_eq_ok.mp hsigned
    obtain ⟨v, rfl, -, -, hr⟩ := (android_decodePairingResponsePayload_eq_ok hC).mp hfound
    obtain ⟨hlow, hverify⟩ := android_verify_eq_ok.mp hverify
    obtain ⟨key, hkey, hkeyBytes⟩ := crate_of_android hC found.phoneSigningPublicKey
    have hcrate := hsame.androidVerify key _ hkey
      (domainInput pairingSig (encodePairingResponse v)) signature
    have hidentity : encodeCompressed (J.w javaIdentity) = encodePublic C identity :=
      (encodePublic_of_point hpoint).symm
    rw [hidentity] at hown hsigning hselection
    rw [hr.signing] at hown hphoneSigning hphoneSelection
    rw [ho.signing] at hsigning hphoneSigning
    rw [ho.selection] at hselection hphoneSelection
    refine ⟨⟨v, signature⟩, ⟨rfl, hsize,
      ⟨identity, ⟨hr.recipient ▸ hrecipient, ⟨?_, ?_, ?_⟩, ?_⟩⟩, key, ?_, hlow, hcrate.symm.trans hverify⟩, hr, rfl⟩
    · exact fun heq => hown (congrArg Subtype.val heq)
    · exact ⟨fun heq => hsigning (congrArg Subtype.val heq),
        fun heq => hselection (congrArg Subtype.val heq)⟩
    · exact ⟨fun heq => hphoneSigning (congrArg Subtype.val heq),
        fun heq => hphoneSelection (congrArg Subtype.val heq)⟩
    · rw [← hr.offerDigest, hanswers, hdigest]
    · rw [← hr.signing, hkeyBytes]
  · rintro ⟨⟨v, signature⟩, ⟨rfl, hsize, ⟨identity, hfits⟩, key, hkey, hlow, hverify⟩, hr, hencoded⟩
    obtain ⟨javaIdentity, hpoint, hidentity⟩ := android_of_crate (J := J) hC identity
    have hphone : C.uncompressedPoint key = encodeUncompressed (J.w r.response.phoneSigningPublicKey) :=
      android_point hC (hr.signing.trans hkey)
    rw [Core.hash, ← hsame.androidVerify key _ hphone] at hverify
    refine ⟨⟨encodePairingResponse v, signature⟩, android_decodeSigned_eq_ok.mpr ⟨rfl, hsize⟩,
      r.response, (android_decodePairingResponsePayload_eq_ok hC).mpr
        ⟨v, rfl, (payload_length_le _ signature).trans hsize, ⟨identity, hfits.recipient⟩, hr⟩, ?_,
      javaIdentity, ⟨identity, hr.recipient.trans hfits.recipient, hpoint⟩, ?_, (),
      android_verify_eq_ok.mpr ⟨hlow, hverify⟩, ?_⟩
    · rw [hr.offerDigest, hdigest]
      exact hfits.digest
    · rw [hidentity, hr.signing, ho.signing, ho.selection]
      exact ⟨fun heq => hfits.apart.own (Subtype.ext heq),
        fun heq => hfits.apart.identity.1 (Subtype.ext heq),
        fun heq => hfits.apart.identity.2 (Subtype.ext heq),
        fun heq => hfits.apart.phone.1 (Subtype.ext heq), fun heq => hfits.apart.phone.2 (Subtype.ext heq)⟩
    · obtain ⟨response, encoded⟩ := r
      obtain rfl := hencoded
      rfl

theorem android_answers (hC : CratePoints C) {response : SignedPairingResponse}
    (h : ResponseAccepted C m offer b response) :
    ∃ v : Android.OfflineEnvelope.VerifiedPairingResponse J,
      AndroidReadsResponse J response.payload v.response ∧ v.encoded = b := by
  obtain ⟨key, hkey⟩ := h.compressed
  obtain ⟨javaKey, -, hjavaKey⟩ := android_of_crate (J := J) hC key
  exact ⟨⟨⟨response.payload.identityId, response.payload.recipient, javaKey,
    response.payload.offerDigest, response.payload.nonce⟩, b⟩,
    ⟨rfl, rfl, hjavaKey.trans hkey.symm, rfl, rfl⟩, rfl⟩

end Verification

/-- The response of a phone with these keys. -/
def answer (C : Crates) (offer : SignedPairingOffer) (identityId : Id) (identity : C.PublicKey)
    (phone : EncodedPublicKey) (nonce : ProtocolNonce) : PairingResponse :=
  ⟨identityId, Recipient.toString C identity, phone, SignedPairingOffer.digest C offer, nonce⟩

section Answers

variable {identityId : Id} {identity phoneKey : C.PublicKey} {phone : EncodedPublicKey}
  {nonce : ProtocolNonce} {signature : Bytes 64} {response : SignedPairingResponse}

private theorem encodePairingResponse_injective {v w : PairingResponse}
    (hv : (utf8 v.recipient).length ≤ 160) (hw : (utf8 w.recipient).length ≤ 160)
    (h : encodePairingResponse v = encodePairingResponse w) : v = w := by
  have hread := pairingResponse_reads (m := .definite) hv []
  rw [h, pairingResponse_reads (m := .definite) hw [], Except.ok.injEq, Prod.mk.injEq] at hread
  exact hread.1.symm

theorem accepted_of_apart (hoffer : SignedPairingOffer.verify C offer = .ok ())
    (hresponse : response.payload =
      answer C offer identityId identity (encodePublic C phoneKey) nonce)
    (hapart : KeysApart C offer.payload identity (encodePublic C phoneKey))
    (hlow : IsLowS response.signature) (hverify : C.verifyPrehash phoneKey
      (hash C pairingSig (encodePairingResponse response.payload)) response.signature = true) :
    ResponseAccepted C m offer (SignedPairingResponse.encode response) response := by
  have hphone : response.payload.phoneSigningPublicKey = encodePublic C phoneKey := by
    rw [hresponse]
    rfl
  have hrecipient : response.payload.recipient = Recipient.toString C identity := by
    rw [hresponse]
    rfl
  have hfound : C.fromSec1Bytes (encodePublic C phoneKey) = some phoneKey :=
    C.fromSec1Bytes_compressed phoneKey
  have hkind : MessageKind.pairingResponse.Valid C response.payload := by
    refine validatePairingResponse_eq_ok.mpr ⟨identity, hrecipient, ?_⟩
    rw [hphone]
    exact ⟨⟨phoneKey, hfound⟩, hapart.own⟩
  have hdecode : SignedPairingResponse.decode C m (SignedPairingResponse.encode response) =
      .ok response := MessageKind.decode_encode hkind
  refine (responseAccepted_iff hoffer).mpr ⟨rfl, (SignedPairingResponse.decode_eq_ok.mp hdecode).2.1,
    ⟨identity, hrecipient, ?_, ?_⟩, phoneKey, hphone, hlow, hverify⟩
  · rw [hphone]
    exact hapart
  · rw [hresponse]
    rfl

/-- The desktop reads the phone's own answer, and accepts it only with its keys apart. -/
theorem apart_of_accepted (hoffer : SignedPairingOffer.verify C offer = .ok ())
    (h : ResponseAccepted C m offer (signed (encodePairingResponse
      (answer C offer identityId identity phone nonce)) signature) response) :
    response.payload = answer C offer identityId identity phone nonce ∧
      KeysApart C offer.payload identity phone := by
  obtain ⟨hencode, hsize, ⟨found, hfits⟩, -⟩ := (responseAccepted_iff hoffer).mp h
  have hlength (key : C.PublicKey) : (utf8 (Recipient.toString C key)).length ≤ 160 := by
    rw [Recipient.toString_length]
    decide
  have hsmall : (encodePairingResponse (answer C offer identityId identity phone nonce)).length <
      2 ^ 64 := ((payload_length_le _ signature).trans hsize).trans_lt (by decide)
  rw [hencode] at hsize
  have hfound : (encodePairingResponse response.payload).length < 2 ^ 64 :=
    ((payload_length_le _ response.signature).trans hsize).trans_lt (by decide)
  obtain ⟨hpayload, -⟩ := MessageKind.signed_append_injective hsmall hfound
    (congrArg (fun bytes => bytes ++ ([] : List Byte)) hencode)
  have hsame := encodePairingResponse_injective (hlength identity)
    (by rw [hfits.recipient]; exact hlength found) hpayload
  have hkey : Recipient.toString C found = Recipient.toString C identity := by
    rw [← hfits.recipient, ← hsame]
    rfl
  obtain rfl := Recipient.toString_injective hkey
  refine ⟨hsame.symm, ?_⟩
  have hapart := hfits.apart
  rw [← hsame] at hapart
  exact hapart

end Answers

section Creation

variable {identityId : Id} {identityKey phoneKey : C.PublicKey} {nonce : ProtocolNonce} {r s : ℕ}

/-- Android puts its answer under a low-S signature, and verifies the result. -/
theorem android_createPairingResponse_eq {o : Android.OfflineEnvelope.VerifiedPairingOffer J}
    {identity : Android.OfflineEnvelope.PhoneIdentityPublic} {signingPublic : J.PublicKey}
    {signingPrivate : J.PrivateKey} {response : SignedPairingResponse}
    (hdigest : o.digest = SignedPairingOffer.digest C offer)
    (hrecipient : identity.recipient = Recipient.toString C identityKey)
    (hsigning : identity.signingPublicKey = encodeCompressed (J.w signingPublic))
    (hresponse : response.payload = answer C offer identity.identityId identityKey
      (encodeCompressed (J.w signingPublic)) nonce)
    (hr : 0 < r ∧ r < order) (hs : 0 < s ∧ s < order)
    (hsignature : response.signature = compact r (min s (order - s)))
    (hsigned : J.signature signingPrivate
      (domainInput pairingSig (encodePairingResponse response.payload)) =
        Android.SignatureEncoding.compactToDer (compact r s)) :
    Android.OfflineEnvelope.createPairingResponse J o identity signingPrivate nonce =
      Android.OfflineEnvelope.verifyPairingResponse J (SignedPairingResponse.encode response) o := by
  have hkey : Android.OfflineEnvelope.decodeCompressed J identity.signingPublicKey =
      .ok signingPublic := by
    rw [hsigning]
    exact android_decodeCompressed_eq_ok.mpr rfl
  have hpayload : Android.OfflineEnvelope.encodePairingResponsePayload J
      ⟨identity.identityId, identity.recipient, signingPublic, o.digest, nonce⟩ =
        .ok (encodePairingResponse response.payload) := by
    rw [Android.OfflineEnvelope.encodePairingResponsePayload, android_encodeCompressed, ok_bind,
      ← encode_pairingResponseItems, hresponse, hdigest, hrecipient]
    rfl
  have hsign : Android.OfflineEnvelope.sign J signingPrivate
      Android.OfflineEnvelope.pairingSignatureDomain (encodePairingResponse response.payload) =
        .ok response.signature.1 := by
    rw [Android.OfflineEnvelope.sign, mapError_ok, hsignature]
    exact (congrArg _ hsigned).trans
      (Android.SignatureEncoding.derToCompact_compactToDer hr.2 hs.2)
  have henvelope : Android.OfflineEnvelope.encodeSigned (encodePairingResponse response.payload)
      response.signature.1 = SignedPairingResponse.encode response := encode_signedItems _ _
  simp only [Android.OfflineEnvelope.createPairingResponse, hkey, ok_bind, android_encodeCompressed,
    ensure_true _ hsigning.symm, hpayload, hsign, henvelope]

/-- The phone on iOS puts its answer under a low-S signature. -/
theorem ios_createPairingResponse_eq {o : Ios.VerifiedPairingOffer K}
    {identity : Ios.IdentityPublicMetadata} {signingKey : K.PublicKey}
    {rawSignature : List Byte → List Byte} {response : SignedPairingResponse}
    (hdigest : o.digest = SignedPairingOffer.digest C offer)
    (hrecipient : identity.recipient = Recipient.toString C identityKey)
    (hsigning : identity.signingPublicKey = Ios.compressed K signingKey)
    (hresponse : response.payload = answer C offer identity.identityId identityKey
      (Ios.compressed K signingKey) nonce)
    (hs : 0 < s ∧ s < order) (hsignature : response.signature = compact r (min s (order - s)))
    (hraw : rawSignature (domainInput pairingSig (encodePairingResponse response.payload)) =
      (compact r s).1) :
    Ios.createPairingResponse K o identity signingKey nonce rawSignature =
      .ok ⟨identity.identityId, identity.recipient, signingKey, o.digest, nonce,
        SignedPairingResponse.encode response⟩ := by
  have hpayload : Ios.pairingResponsePayload K o identity nonce =
      .ok (encodePairingResponse response.payload) := by
    have hsize : identity.signingPublicKey.length = 33 := by
      rw [hsigning]
      exact (Ios.compressed K signingKey).2
    rw [Ios.pairingResponsePayload, ensure_true _ hsize, ok_bind, ← encode_pairingResponseItems,
      hresponse, hsigning, hdigest, hrecipient]
    rfl
  have hlow : Ios.lowSSignature (compact r s).1 = .ok response.signature.1 := by
    rw [hsignature]
    exact Ios.lowSSignature_of_checked (Ios.lowSSignatureChecked_eq hs)
  have hdomain : Ios.domainInput Ios.pairingSignatureDomain (encodePairingResponse response.payload) =
      domainInput pairingSig (encodePairingResponse response.payload) := rfl
  have hkey : Ios.publicKey K (Ios.compressed K signingKey) = .ok signingKey :=
    Ios.publicKey_compressed.mpr rfl
  have henvelope : Ios.encodeSigned (encodePairingResponse response.payload) response.signature.1 =
      SignedPairingResponse.encode response := encode_signedItems _ _
  simp only [Ios.createPairingResponse, ensure_true _ hsigning.symm, ok_bind, hpayload, hdomain, hraw,
    hlow, hkey, henvelope]
  rfl

end Creation

/-- The two keys of a phone, in the hands of either platform. -/
structure PhoneKeys (C : Crates) (K : Ios.CryptoKit) (J : Android.OfflineEnvelope.Provider) where
  identity : C.PublicKey
  signing : C.PublicKey
  kitIdentity : K.PublicKey
  kitSigning : K.PublicKey
  javaSigning : J.PublicKey
  javaPrivate : J.PrivateKey
  kitIdentity_point : K.x963Representation kitIdentity = C.uncompressedPoint identity
  kitSigning_point : K.x963Representation kitSigning = C.uncompressedPoint signing
  javaSigning_point : C.uncompressedPoint signing = encodeUncompressed (J.w javaSigning)

/-- Either platform signs the response with one pair of numbers, of which the lower form is in the
response and verifies. -/
structure Signs (keys : PhoneKeys C K J) (rawSignature : List Byte → List Byte)
    (response : SignedPairingResponse) (r s : ℕ) : Prop where
  first : 0 < r ∧ r < order
  second : 0 < s ∧ s < order
  signature : response.signature = compact r (min s (order - s))
  android : J.signature keys.javaPrivate
    (domainInput pairingSig (encodePairingResponse response.payload)) =
      Android.SignatureEncoding.compactToDer (compact r s)
  ios : rawSignature (domainInput pairingSig (encodePairingResponse response.payload)) =
    (compact r s).1
  verifies : C.verifyPrehash keys.signing
    (hash C pairingSig (encodePairingResponse response.payload)) response.signature = true

section Agreement

variable {a : Android.OfflineEnvelope.VerifiedPairingOffer J} {i : Ios.VerifiedPairingOffer K}
  {keys : PhoneKeys C K J} {rawSignature : List Byte → List Byte} {response : SignedPairingResponse}
  {identityId : Id} {nonce : ProtocolNonce} {r s : ℕ}

private theorem android_fingerprint (hsame : SameVerifiers C K J)
    (hencoded : a.encoded = SignedPairingOffer.encode offer)
    {v : Android.OfflineEnvelope.VerifiedPairingResponse J}
    (hv : v.encoded = SignedPairingResponse.encode response) :
    Android.OfflineEnvelope.pairingFingerprint J a v = pairingFingerprint C offer response := by
  rw [Android.OfflineEnvelope.pairingFingerprint, Android.OfflineEnvelope.digest, hsame.androidHash,
    hencoded, hv]
  rfl

private theorem ios_fingerprint (hsame : SameVerifiers C K J)
    (hencoded : i.encoded = SignedPairingOffer.encode offer) {v : Ios.VerifiedPairingResponse K}
    (hv : v.encoded = SignedPairingResponse.encode response) :
    Ios.pairingFingerprint K i v = pairingFingerprint C offer response := by
  rw [Ios.pairingFingerprint, Ios.digest, hsame.iosHash, hencoded, hv]
  rfl

/-- The desktop accepts the phone's own answer exactly with the keys apart. -/
theorem answer_accepted_iff (hoffer : SignedPairingOffer.verify C offer = .ok ())
    (hresponse : response.payload =
      answer C offer identityId keys.identity (encodePublic C keys.signing) nonce)
    (hsigns : Signs keys rawSignature response r s) :
    (∃ accepted, ResponseAccepted C m offer (SignedPairingResponse.encode response) accepted) ↔
      KeysApart C offer.payload keys.identity (encodePublic C keys.signing) := by
  constructor
  · rintro ⟨accepted, haccepted⟩
    have hencode : SignedPairingResponse.encode response =
        signed (encodePairingResponse (answer C offer identityId keys.identity
          (encodePublic C keys.signing) nonce)) response.signature := by
      rw [← hresponse]
      rfl
    rw [hencode] at haccepted
    exact (apart_of_accepted hoffer haccepted).2
  · intro hapart
    have hlow : IsLowS response.signature := by
      rw [hsigns.signature]
      exact (isLowS_compact ((min_le_left _ _).trans_lt hsigns.second.2)).mpr (min_negative_le s)
    exact ⟨response, accepted_of_apart hoffer hresponse hapart hlow hsigns.verifies⟩

/-- Android makes the answer that the desktop accepts, and no other. -/
private theorem android_creates (hsame : SameVerifiers C K J)
    (hdigest : a.digest = SignedPairingOffer.digest C offer)
    (hencoded : a.encoded = SignedPairingOffer.encode offer)
    (hverify : ∀ bytes v, Android.OfflineEnvelope.verifyPairingResponse J bytes a = .ok v ↔
      ∃ response, ResponseAccepted C m offer bytes response ∧
        AndroidReadsResponse J response.payload v.response ∧ v.encoded = bytes)
    (hresponse : response.payload =
      answer C offer identityId keys.identity (encodePublic C keys.signing) nonce)
    (hsigns : Signs keys rawSignature response r s)
    {v : Android.OfflineEnvelope.VerifiedPairingResponse J}
    (h : Android.OfflineEnvelope.createPairingResponse J a
      ⟨identityId, Recipient.toString C keys.identity, encodePublic C keys.signing⟩
      keys.javaPrivate nonce = .ok v) :
    (∃ accepted, ResponseAccepted C m offer (SignedPairingResponse.encode response) accepted) ∧
      v.encoded = SignedPairingResponse.encode response ∧
      Android.OfflineEnvelope.pairingFingerprint J a v = pairingFingerprint C offer response := by
  have hkey := encodePublic_of_point keys.javaSigning_point
  rw [hkey] at hresponse
  rw [android_createPairingResponse_eq hdigest rfl (congrArg Subtype.val hkey) hresponse hsigns.first
    hsigns.second hsigns.signature hsigns.android] at h
  obtain ⟨accepted, haccepted, -, hv⟩ := (hverify _ _).mp h
  exact ⟨⟨accepted, haccepted⟩, hv, android_fingerprint hsame hencoded hv⟩

/-- The phone on iOS makes the answer whatever its keys. -/
private theorem ios_creates (hsame : SameVerifiers C K J)
    (hdigest : i.digest = SignedPairingOffer.digest C offer)
    (hencoded : i.encoded = SignedPairingOffer.encode offer)
    (hresponse : response.payload =
      answer C offer identityId keys.identity (encodePublic C keys.signing) nonce)
    (hsigns : Signs keys rawSignature response r s) {identity : Ios.IdentityPublicMetadata}
    (hidentity : Ios.committedMetadata K identityId keys.kitIdentity keys.kitSigning =
      some identity) :
    ∃ v, Ios.createPairingResponse K i identity keys.kitSigning nonce rawSignature = .ok v ∧
      v.encoded = SignedPairingResponse.encode response ∧
      Ios.pairingFingerprint K i v = pairingFingerprint C offer response := by
  have hkey : Ios.compressed K keys.kitSigning = encodePublic C keys.signing :=
    congrArg compress keys.kitSigning_point
  have hrecipient : Ios.RecipientEncoding.encode K keys.kitIdentity false =
      Recipient.toString C keys.identity := (Recipients.ios_recipient keys.kitIdentity_point).1
  simp only [Ios.committedMetadata] at hidentity
  split_ifs at hidentity
  obtain rfl := Option.some.inj hidentity
  rw [← hkey] at hresponse
  exact ⟨_, ios_createPairingResponse_eq hdigest hrecipient rfl hresponse hsigns.second
    hsigns.signature hsigns.ios, rfl, ios_fingerprint hsame hencoded rfl⟩

private def sampleKeys : PhoneKeys (Crates.ofTable pairingTable)
    (kitOfTable pairingTable) (providerOfTable pairingTable) where
  identity := identityPoint
  signing := phoneSigningPoint
  kitIdentity := identityPoint
  kitSigning := phoneSigningPoint
  javaSigning := phoneSigningPoint
  javaPrivate := phoneSigningPoint
  kitIdentity_point := rfl
  kitSigning_point := rfl
  javaSigning_point := rfl

private def sampleRawSignature (_ : List Byte) : List Byte := (sampleResponse false).signature

/-- The sample response answers the sample offer under the keys of the sample phone. -/
private theorem sampleResponse_values :
    Signs sampleKeys sampleRawSignature (sampleResponse false)
      0x8e533b6fa0bf7b4625bb30667c01fb607ef9f8b8a80fef5b300628703187b2a3
      0x75380821370f1afa3c2279a63cd9cb0bb770512d2d153002dddde68da4cf3e90 ∧
    (sampleResponse false).payload =
      answer (Crates.ofTable pairingTable) (sampleOffer false) (Bytes.replicate 16 2)
        sampleKeys.identity (encodePublic (Crates.ofTable pairingTable) sampleKeys.signing)
        (Bytes.replicate 32 8) ∧
    KeysApart (Crates.ofTable pairingTable) (sampleOffer false).payload sampleKeys.identity
      (encodePublic (Crates.ofTable pairingTable) sampleKeys.signing) ∧
    IsLowS (sampleResponse false).signature ∧
    Ios.compressed (kitOfTable pairingTable) identityPoint ≠
      Ios.compressed (kitOfTable pairingTable) phoneSigningPoint := by
  have hfound : tableSignature pairingTable phoneSigningPoint
      (domainInput pairingSig (encodePairingResponse (sampleResponse false).payload)) =
        (sampleResponse false).signature := by
    decide +kernel
  have hrecipient := sampleRecipient_eq pairingTable
  have hphone : encodeCompressed phoneSigningPoint.1 =
      encodePublic (Crates.ofTable pairingTable) phoneSigningPoint :=
    (encodePublic_ofTable _ _).symm
  have hdigest : (sampleResponse false).payload.offerDigest =
      SignedPairingOffer.digest (Crates.ofTable pairingTable) (sampleOffer false) := by
    decide +kernel
  refine ⟨⟨by norm_num [order], by norm_num [order], by decide +kernel,
    congrArg Android.SignatureEncoding.compactToDer hfound, rfl, by decide +kernel⟩, ?_,
    ⟨by decide +kernel, by decide +kernel, by decide +kernel⟩, by decide +kernel, by decide +kernel⟩
  rw [answer, sampleKeys, ← hrecipient, ← hphone, ← hdigest]
  rfl

/-- The sample response is accepted by the desktop of the sample offer. -/
theorem sampleResponse_accepted : ResponseAccepted (Crates.ofTable pairingTable) .definite
    (sampleOffer false) (SignedPairingResponse.encode (sampleResponse false)) (sampleResponse false) := by
  obtain ⟨hsigns, hanswer, hapart, hlow, -⟩ := sampleResponse_values
  exact accepted_of_apart sampleOffer_accepted.verified hanswer hapart hlow hsigns.verifies

/-- Android makes the sample response. -/
theorem sampleResponse_created {a : Android.OfflineEnvelope.VerifiedPairingOffer
      (providerOfTable pairingTable)}
    (hdigest : a.digest = SignedPairingOffer.digest (Crates.ofTable pairingTable) (sampleOffer false)) :
    Android.OfflineEnvelope.createPairingResponse (providerOfTable pairingTable) a
        ⟨Bytes.replicate 16 2, Recipient.toString (Crates.ofTable pairingTable) identityPoint,
          encodePublic (Crates.ofTable pairingTable) phoneSigningPoint⟩ phoneSigningPoint
        (Bytes.replicate 32 8) =
      Android.OfflineEnvelope.verifyPairingResponse (providerOfTable pairingTable)
        (SignedPairingResponse.encode (sampleResponse false)) a := by
  have hkey := encodePublic_of_point sampleKeys.javaSigning_point
  obtain ⟨hsigns, hanswer, -⟩ := sampleResponse_values
  rw [hkey] at hanswer
  exact android_createPairingResponse_eq hdigest rfl (congrArg Subtype.val hkey) hanswer
    hsigns.first hsigns.second hsigns.signature hsigns.android

end Agreement

end AgePluginPhone.Phone.Envelope
