import AgePluginPhone.Core.ResponseSealing
import AgePluginPhone.Ios.ResponseSealing
import AgePluginPhone.Phone.RequestAgreement

/-!
# Agreement on unwrap responses

With one session key, nonce and signature the two phones send the bytes that the desktop's own
sealing gives, and the desktop opens them.
-/

namespace AgePluginPhone.Phone.Envelope

open Library Cbor P256 AgePluginPhone.Core AgePluginPhone.Phone.Stanza

/-- The phones compute the HMAC and the authenticated encryption of the desktop. -/
structure SameCiphers (C : Crates) (P : Ios.SealingCiphers)
    (J : Android.OfflineEnvelope.Provider) : Prop where
  androidHmac : J.hmacSha256 = C.hmacSha256
  androidSeal : J.encrypt = C.encrypt
  iosHmac : P.hmacSha256 = C.hmacSha256
  iosSeal : ∀ key nonce message aad,
    (P.sealBox key nonce message aad).1 ++ (P.sealBox key nonce message aad).2 =
      C.encrypt key nonce aad message

variable {C : Crates} {m : TextMinicbor} {K : Ios.CryptoKit} {P : Ios.SealingCiphers}
  {J : Android.OfflineEnvelope.Provider} {request : VerifiedRequest}
  {pairing : PairingRecord} {fileKey : Bytes 16} {signer : P256Signer}
  {phoneSession desktopSession : C.SecretKey} {nonce : ProtocolNonce}
  {response : SignedUnwrapResponse} {r s : ℕ}

variable (C K J) in
/-- The session key of a phone: the desktop's scalar in the hands of either platform. -/
structure SessionOf (phoneSession : C.SecretKey) (javaPublic : J.PublicKey)
    (javaPrivate : J.PrivateKey) (kitSession : Ios.SessionKey K) : Prop where
  android : C.uncompressedPoint (C.publicKey phoneSession) = encodeUncompressed (J.w javaPublic)
  ios : K.x963Representation kitSession.publicKey = C.uncompressedPoint (C.publicKey phoneSession)
  androidAgrees : ∀ peer key, C.uncompressedPoint key = encodeUncompressed (J.w peer) →
    J.generateSecret javaPrivate peer = C.diffieHellman phoneSession key
  iosAgrees : ∀ peer key, K.x963Representation peer = C.uncompressedPoint key →
    kitSession.sharedSecretFromKeyAgreement peer = .ok (C.diffieHellman phoneSession key)

variable {javaPublic : J.PublicKey} {javaPrivate : J.PrivateKey} {kitSession : Ios.SessionKey K}

private theorem responseFieldItems_answer (encrypted : Bytes 32) (sessionPublic : EncodedPublicKey) :
    responseFieldItems (request.answer sessionPublic nonce encrypted) =
      headerItems responseKind ++ [.bytes request.payload.requestId, .bytes request.digest,
        .bytes request.payload.identityId, .bytes request.payload.desktopId, .bytes sessionPublic,
        .bytes nonce] := rfl

/-- What the desktop's own sealing makes decodes, and is within the bound on envelopes. -/
theorem decode_of_sealResponse
    (hseal : sealResponse C request fileKey signer phoneSession nonce = .ok response) :
    SignedUnwrapResponse.decode C m (SignedUnwrapResponse.encode response) = .ok response := by
  obtain ⟨_, _, -, hpayload, -⟩ := sealResponse_eq_ok.mp hseal
  have hkind : MessageKind.response.Valid C response.payload := ⟨_, by rw [hpayload]; rfl⟩
  exact MessageKind.decode_encode hkind

private theorem length_of_sealResponse
    (hseal : sealResponse C request fileKey signer phoneSession nonce = .ok response) :
    (SignedUnwrapResponse.encode response).length ≤ 65536 :=
  (SignedUnwrapResponse.decode_eq_ok.mp (decode_of_sealResponse (m := .definite) hseal)).2.1

section Android

variable {q : Android.OfflineEnvelope.VerifiedRequest J} {phoneKey : C.PublicKey}
  {signingPublic : J.PublicKey} {signingPrivate : J.PrivateKey}

private theorem android_responseFields {v : Android.OfflineEnvelope.Response J}
    {w : UnwrapResponse} (hrequestId : v.requestId = w.requestId)
    (hdigest : v.requestDigest = w.requestDigest) (hidentity : v.identityId = w.identityId)
    (hdesktop : v.desktopId = w.desktopId) (hnonce : v.nonce = w.nonce)
    (hsession : encodeCompressed (J.w v.phoneSessionPublicKey) = w.phoneSessionPublicKey) :
    Android.OfflineEnvelope.responseFields J v = .ok (responseFieldItems w) := by
  rw [Android.OfflineEnvelope.responseFields, Android.OfflineEnvelope.encodeCompressed,
    Android.TaggedRecipientCrypto.encodeCompressed_eq, hrequestId, hdigest, hidentity, hdesktop,
    hnonce, hsession]
  rfl

theorem android_point (hC : CratePoints C) {peer : J.PublicKey} {key : C.PublicKey}
    (h : encodeCompressed (J.w peer) = encodePublic C key) :
    C.uncompressedPoint key = encodeUncompressed (J.w peer) := by
  obtain ⟨point, hpoint, hkey⟩ := hC.onCurve key
  rw [encodePublic_of_point hkey] at h
  rw [hkey, encodeCompressed_injective (J.w_onCurve peer) hpoint h]

theorem android_sealResponse (hC : CratePoints C) (hverifiers : SameVerifiers C K J)
    (hciphers : SameCiphers C P J)
    (hq : AndroidReads J request.payload q.request) (hdigest : q.digest = request.digest)
    (hsession : SessionOf C K J phoneSession javaPublic javaPrivate kitSession)
    (hseal : sealResponse C request fileKey signer phoneSession nonce = .ok response)
    (hsigning : C.uncompressedPoint phoneKey = encodeUncompressed (J.w signingPublic))
    (hverify : C.verifyPrehash phoneKey (hash C responseSig (encodeResponse response.payload))
      response.signature = true)
    (hr : 0 < r ∧ r < order) (hs : 0 < s ∧ s < order)
    (hsignature : response.signature = compact r (min s (order - s)))
    (hsigned : J.signature signingPrivate
      (domainInput responseSig (encodeResponse response.payload)) =
        Android.SignatureEncoding.compactToDer (compact r s)) :
    ∃ completed, Android.OfflineEnvelope.sealResponse J q fileKey signingPrivate signingPublic
      javaPrivate javaPublic nonce = .ok (completed, SignedUnwrapResponse.encode response) := by
  obtain ⟨desktop, encrypted, hdesktop, hpayload, hencrypted, -⟩ := sealResponse_eq_ok.mp hseal
  have hpublic : encodeCompressed (J.w javaPublic) = encodePublic C (C.publicKey phoneSession) :=
    (encodePublic_of_point hsession.android).symm
  have hfields (body : List Byte) : Android.OfflineEnvelope.responseFields J
      ⟨q.request.requestId, q.digest, q.request.identityId, q.request.desktopId, javaPublic, nonce,
        body⟩ = .ok (responseFieldItems response.payload) := by
    apply android_responseFields <;> rw [hpayload]
    · exact hq.requestId
    · exact hdigest
    · exact hq.identityId
    · exact hq.desktopId
    · rfl
    · exact hpublic
  have haad : Android.OfflineEnvelope.encodeResponseAad J
      ⟨q.request.requestId, q.digest, q.request.identityId, q.request.desktopId, javaPublic, nonce,
        List.replicate 32 0⟩ = .ok (responseAad response.payload) := by
    rw [Android.OfflineEnvelope.encodeResponseAad, hfields, ok_bind,
      encode_responseFieldItems]
    rfl
  have hpeer : C.uncompressedPoint desktop = encodeUncompressed (J.w q.request.sessionPublicKey) :=
    android_point hC (hq.session.trans hdesktop)
  have hsecret := hsession.androidAgrees _ _ hpeer
  have hsealed : Android.OfflineEnvelope.encrypt J
      (J.generateSecret javaPrivate q.request.sessionPublicKey).1 q.digest nonce
      (responseAad response.payload) fileKey = encrypted.1 := by
    rw [hencrypted, hsecret, hdigest, Android.OfflineEnvelope.encrypt, hciphers.androidSeal,
      Android.OfflineEnvelope.hkdf, hciphers.androidHmac]
    rfl
  have hencoded : Android.OfflineEnvelope.encodeResponsePayload J
      ⟨q.request.requestId, q.digest, q.request.identityId, q.request.desktopId, javaPublic, nonce,
        encrypted.1⟩ = .ok (encodeResponse response.payload) := by
    have hitems : responseItems response.payload =
        responseFieldItems response.payload ++ [.bytes encrypted.1] := by
      rw [responseItems, hpayload]
      rfl
    rw [Android.OfflineEnvelope.encodeResponsePayload, hfields, ok_bind, ← encode_responseItems,
      hitems]
    rfl
  have hsign : Android.OfflineEnvelope.sign J signingPrivate
      Android.OfflineEnvelope.responseSignatureDomain (encodeResponse response.payload) =
        .ok response.signature.1 := by
    rw [Android.OfflineEnvelope.sign, mapError_ok, hsignature]
    exact (congrArg _ hsigned).trans
      (Android.SignatureEncoding.derToCompact_compactToDer hr.2 hs.2)
  have henvelope : Android.OfflineEnvelope.encodeSigned (encodeResponse response.payload)
      response.signature.1 = SignedUnwrapResponse.encode response :=
    encode_signedItems _ _
  have hdecode := (android_decodeSigned_eq_ok (J := J)).mpr
    (show SignedUnwrapResponse.encode response =
      signed (encodeResponse response.payload) response.signature ∧ _ from
      ⟨rfl, length_of_sealResponse hseal⟩)
  have hcheck : Android.OfflineEnvelope.verify J signingPublic
      Android.OfflineEnvelope.responseSignatureDomain (encodeResponse response.payload)
        response.signature.1 = .ok () := by
    refine android_verify_eq_ok.mpr ⟨?_, ?_⟩
    · rw [hsignature]
      exact (isLowS_compact ((min_le_left _ _).trans_lt hs.2)).mpr (min_negative_le s)
    · rw [hverifiers.androidVerify _ _ hsigning]
      exact hverify
  refine ⟨⟨q.request.requestId, q.digest, q.request.identityId, q.request.desktopId, javaPublic,
    nonce, encrypted.1⟩, ?_⟩
  simp only [Android.OfflineEnvelope.sealResponse, ensure_true _ fileKey.2, ok_bind, haad,
    hsealed, hencoded, hsign, henvelope, hdecode, hcheck]
  rfl

end Android

section Ios

variable {q : Ios.VerifiedUnwrapRequest K} {rawSignature : List Byte → Except Ios.Failure (List Byte)}

theorem ios_point (hC : CratePoints C) (hK : KitPoints K) {peer : K.PublicKey}
    {key : C.PublicKey} (h : Ios.compressed K peer = encodePublic C key) :
    K.x963Representation peer = C.uncompressedPoint key := by
  obtain ⟨point, hpoint, hkey⟩ := hC.onCurve key
  obtain ⟨other, hother, hpeer⟩ := hK.onCurve peer
  rw [encodePublic_of_point hkey, compressed_of_point hpeer] at h
  rw [hpeer, hkey, encodeCompressed_injective hother hpoint h]

theorem ios_sealResponse (hC : CratePoints C) (hK : KitPoints K) (hhash : K.sha256 = C.sha256)
    (hciphers : SameCiphers C P J) (hq : IosReads K request.signed q)
    (hdigest : request.digest = hash C requestDigest request.encode)
    (hsession : SessionOf C K J phoneSession javaPublic javaPrivate kitSession)
    (hseal : sealResponse C request fileKey signer phoneSession nonce = .ok response)
    (hs : 0 < s ∧ s < order) (hsignature : response.signature = compact r (min s (order - s)))
    (hraw : rawSignature (domainInput responseSig (encodeResponse response.payload)) =
      .ok (compact r s).1) :
    Ios.sealResponse K P q fileKey kitSession nonce rawSignature =
      .ok (SignedUnwrapResponse.encode response) := by
  obtain ⟨desktop, encrypted, hdesktop, hpayload, hencrypted, -⟩ := sealResponse_eq_ok.mp hseal
  have hpublic : Ios.compressed K kitSession.publicKey = encodePublic C (C.publicKey phoneSession) :=
    congrArg compress hsession.ios
  have hfound : q.digest = request.digest := by
    rw [hq.digest, Ios.digest, hhash, hdigest]
    rfl
  have hfields : Ios.responseFields K q (Ios.compressed K kitSession.publicKey) nonce =
      responseFieldItems response.payload := by
    rw [hpayload, Ios.responseFields, hq.requestId, hfound, hq.identityId, hq.desktopId, hpublic]
    rfl
  have hpeer : K.x963Representation q.sessionPublicKey = C.uncompressedPoint desktop :=
    ios_point hC hK (hq.session.trans hdesktop)
  have hitems : responseItems response.payload =
      responseFieldItems response.payload ++ [.bytes encrypted.1] := by
    rw [responseItems, hpayload]
    rfl
  have hsealed : Ios.responsePayload K P q fileKey kitSession nonce =
      .ok (encodeResponse response.payload) := by
    simp only [Ios.responsePayload, ensure_true _ fileKey.2, ok_bind, hfields,
      hsession.iosAgrees _ _ hpeer, hciphers.iosSeal, hciphers.iosHmac, hfound,
      encode_responseFieldItems, ← encode_responseItems, hitems, hencrypted]
    rfl
  have hlow : Ios.lowSSignatureChecked (compact r s).1 = .ok response.signature.1 := by
    rw [Ios.lowSSignatureChecked_eq hs, hsignature]
  have hdomain : Ios.domainInput Ios.responseSignatureDomain (encodeResponse response.payload) =
      domainInput responseSig (encodeResponse response.payload) := rfl
  simp only [Ios.sealResponse, ensure_true _ fileKey.2, ok_bind, hsealed, hdomain, hraw, hlow]
  exact congrArg Except.ok (encode_signedItems _ _)

end Ios

section Agreement

variable {signingPublic : J.PublicKey} {signingPrivate : J.PrivateKey}
  {rawSignature : List Byte → Except Ios.Failure (List Byte)}

/-- A desktop key with an encoding that the phone also has. -/
theorem key_of_encoding (hC : CratePoints C) {bytes : EncodedPublicKey} {key : C.PublicKey}
    (hkey : C.fromSec1Bytes bytes = some key) (hbytes : bytes = encodeCompressed (J.w signingPublic)) :
    C.uncompressedPoint key = encodeUncompressed (J.w signingPublic) := by
  obtain ⟨found, hfound⟩ := hC.isKey _ (J.w_onCurve signingPublic)
  have hsame := C.fromSec1Bytes_compressed found
  rw [show compress (C.uncompressedPoint found) = bytes from
    (encodePublic_of_point hfound).trans hbytes.symm, hkey, Option.some.injEq] at hsame
  rw [hsame, hfound]

/-- Given one session key, nonce and signature, the sealing of either phone gives the bytes that the
desktop's own sealing gives, low-S whatever the platform signed. They decode, and within the
request's lifetime the desktop opens them to the same file key over any store that consumes them. -/
theorem response_agreement (hC : CratePoints C) (hK : KitPoints K) (hverifiers : SameVerifiers C K J)
    (hciphers : SameCiphers C P J) (hrequest : request.For C pairing) (hsigner : signer.Ideal C)
    (hkey : signer.publicKey = .ok pairing.phoneSigningPublicKey)
    (hdesktop : request.payload.sessionPublicKey = encodePublic C (C.publicKey desktopSession))
    (hseal : sealResponse C request fileKey signer phoneSession nonce = .ok response)
    (hsession : SessionOf C K J phoneSession javaPublic javaPrivate kitSession)
    (hsigning : pairing.phoneSigningPublicKey = encodeCompressed (J.w signingPublic))
    (hr : 0 < r ∧ r < order) (hs : 0 < s ∧ s < order)
    (hsignature : response.signature = compact r (min s (order - s)))
    (hsigned : J.signature signingPrivate
      (domainInput responseSig (encodeResponse response.payload)) =
        Android.SignatureEncoding.compactToDer (compact r s))
    (hraw : rawSignature (domainInput responseSig (encodeResponse response.payload)) =
      .ok (compact r s).1) :
    (∀ q : Android.OfflineEnvelope.VerifiedRequest J,
      AndroidReads J request.payload q.request → q.digest = request.digest →
      ∃ completed, Android.OfflineEnvelope.sealResponse J q fileKey signingPrivate signingPublic
        javaPrivate javaPublic nonce = .ok (completed, SignedUnwrapResponse.encode response)) ∧
    (∀ q : Ios.VerifiedUnwrapRequest K, IosReads K request.signed q →
      Ios.sealResponse K P q fileKey kitSession nonce rawSignature =
        .ok (SignedUnwrapResponse.encode response)) ∧
    SignedUnwrapResponse.decode C m (SignedUnwrapResponse.encode response) = .ok response ∧
    ∀ (σ : Type) (store : ReplayStore σ) now replay,
      validateRequestTime request.payload.expiresAtUnix now = .ok () →
      openResponse C store response request pairing desktopSession now replay =
        ((store.consumeResponse replay pairing.desktopId pairing.identityId
          (hash C responseSig (SignedUnwrapResponse.encode response)) request.payload.expiresAtUnix
          now).1.map fun _ => fileKey,
        (store.consumeResponse replay pairing.desktopId pairing.identityId
          (hash C responseSig (SignedUnwrapResponse.encode response)) request.payload.expiresAtUnix
          now).2) := by
  obtain ⟨-, -, -, hdigest⟩ := hrequest.fields
  obtain ⟨_, _, -, -, -, hsign⟩ := sealResponse_eq_ok.mp hseal
  obtain ⟨-, phoneKey, hphone, hverify⟩ := hsigner _ _ _ hkey hsign
  refine ⟨?_, ?_, decode_of_sealResponse hseal, ?_⟩
  · intro q hq hfound
    exact android_sealResponse hC hverifiers hciphers hq hfound hsession hseal
      (key_of_encoding hC hphone hsigning) hverify hr hs hsignature hsigned
  · intro q hq
    exact ios_sealResponse hC hK hverifiers.iosHash hciphers hq hdigest hsession hseal hs hsignature
      hraw
  · intro σ store now replay htime
    rw [openResponse, openChecked_of_sealResponse hrequest hsigner hkey hdesktop hseal htime]

/-- The ciphers of the sample exchange. -/
private def sampleCiphers : Ios.SealingCiphers where
  toCiphers := ciphersOfTable sampleExchange
  sealBox key _ message aad := (sampleExchange.sealMessage key aad message, [])

private theorem sampleExchange_ciphers :
    SameCiphers (Crates.ofTable sampleExchange) sampleCiphers (providerOfTable sampleExchange) := by
  have hpadded : paddedHmac sampleExchange = sampleExchange.hmac :=
    paddedHmac_eq sampleExchange (by decide +kernel)
  exact ⟨hpadded, rfl, hpadded, fun _ _ _ _ => List.append_nil _⟩

private def sampleKitSession : Ios.SessionKey (kitOfTable sampleExchange) where
  publicKey := phoneSessionPoint
  sharedSecretFromKeyAgreement peer := .ok (sampleExchange.agree phoneSessionPoint peer)

private theorem sampleSession : SessionOf (Crates.ofTable sampleExchange) (kitOfTable sampleExchange)
    (providerOfTable sampleExchange) phoneSessionPoint phoneSessionPoint phoneSessionPoint
    sampleKitSession := by
  refine ⟨rfl, rfl, ?_, ?_⟩
  · intro peer key hpoint
    obtain rfl : key = peer := uncompressed_injective hpoint
    rfl
  · intro peer key hpoint
    obtain rfl : peer = key := uncompressed_injective hpoint
    rfl

private def sampleRaw (message : List Byte) : Except Ios.Failure (List Byte) :=
  .ok (tableSignature sampleExchange phoneSigningPoint message)

/-- What the phones send for the sample request. -/
theorem response_agreement_sample :
    (∀ q : Android.OfflineEnvelope.VerifiedRequest (providerOfTable sampleExchange),
      AndroidReads _ sampleRequest q.request → q.digest = sampleVerifiedRequest.digest →
      ∃ completed, Android.OfflineEnvelope.sealResponse _ q (List.replicate 16 4)
        phoneSigningPoint phoneSigningPoint phoneSessionPoint phoneSessionPoint
        (Bytes.replicate 32 9) =
          .ok (completed, SignedUnwrapResponse.encode sampleSealedResponse)) ∧
    ∀ q : Ios.VerifiedUnwrapRequest (kitOfTable sampleExchange),
      IosReads _ sampleSignedRequest q →
      Ios.sealResponse _ sampleCiphers q (List.replicate 16 4) sampleKitSession
        (Bytes.replicate 32 9) sampleRaw = .ok (SignedUnwrapResponse.encode sampleSealedResponse) := by
  have hfound : tableSignature sampleExchange phoneSigningPoint
      (domainInput responseSig (encodeResponse sampleSealedResponse.payload)) =
        sampleSealedResponse.signature := by
    decide +kernel
  have hr : 0 < 0x8e533b6fa0bf7b4625bb30667c01fb607ef9f8b8a80fef5b300628703187b2a3 ∧
      0x8e533b6fa0bf7b4625bb30667c01fb607ef9f8b8a80fef5b300628703187b2a3 < order := by
    norm_num [order]
  have hs : 0 < 0x508b03e8fb126d7974a40e79170e095ada92a71d0f5f83d1768405b5b40fae05 ∧
      0x508b03e8fb126d7974a40e79170e095ada92a71d0f5f83d1768405b5b40fae05 < order := by
    norm_num [order]
  have hsignature : sampleSealedResponse.signature =
      compact 0x8e533b6fa0bf7b4625bb30667c01fb607ef9f8b8a80fef5b300628703187b2a3
        (min 0x508b03e8fb126d7974a40e79170e095ada92a71d0f5f83d1768405b5b40fae05
          (order - 0x508b03e8fb126d7974a40e79170e095ada92a71d0f5f83d1768405b5b40fae05)) := by
    decide +kernel
  have hcompact : sampleSealedResponse.signature =
      compact 0x8e533b6fa0bf7b4625bb30667c01fb607ef9f8b8a80fef5b300628703187b2a3
        0x508b03e8fb126d7974a40e79170e095ada92a71d0f5f83d1768405b5b40fae05 := rfl
  have hsigned : (providerOfTable sampleExchange).signature phoneSigningPoint
      (domainInput responseSig (encodeResponse sampleSealedResponse.payload)) =
        Android.SignatureEncoding.compactToDer
          (compact 0x8e533b6fa0bf7b4625bb30667c01fb607ef9f8b8a80fef5b300628703187b2a3
            0x508b03e8fb126d7974a40e79170e095ada92a71d0f5f83d1768405b5b40fae05) := by
    rw [← hcompact, ← hfound]
    rfl
  have hraw : sampleRaw (domainInput responseSig (encodeResponse sampleSealedResponse.payload)) =
      .ok (compact 0x8e533b6fa0bf7b4625bb30667c01fb607ef9f8b8a80fef5b300628703187b2a3
        0x508b03e8fb126d7974a40e79170e095ada92a71d0f5f83d1768405b5b40fae05).1 := by
    rw [← hcompact, sampleRaw, hfound]
  have hsigning : samplePairing.phoneSigningPublicKey =
      encodeCompressed ((providerOfTable sampleExchange).w phoneSigningPoint) := rfl
  obtain ⟨handroid, hios, -, -⟩ := response_agreement (m := .definite) (ofTable_points sampleExchange)
    (kitOfTable_points sampleExchange) (ofTable_sameVerifiers sampleExchange) sampleExchange_ciphers
    sampleRequest_for samplePhoneSigner_ideal rfl sampleRequest_session sampleResponse_sealed
    sampleSession hsigning hr hs hsignature hsigned hraw
  exact ⟨handroid, hios⟩

end Agreement

end AgePluginPhone.Phone.Envelope
