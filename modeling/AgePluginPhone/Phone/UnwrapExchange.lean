import AgePluginPhone.Phone.ResponseAgreement

/-!
# A whole unwrap

What the desktop wraps and asks for, either phone verifies, unwraps and seals, and the desktop
opens: the file key that went in comes out.
-/

namespace AgePluginPhone.Phone.Envelope

open Library P256 AgePluginPhone.Core AgePluginPhone.Phone.Stanza

/-- What the platforms have in common. -/
structure SamePlatforms (C : Crates) (K : Ios.CryptoKit) (P : Ios.SealingCiphers)
    (J : Android.OfflineEnvelope.Provider) : Prop where
  crates : CratePoints C
  kit : KitPoints K
  functions : SameFunctions C K P.toCiphers J.toJca
  verifiers : SameVerifiers C K J
  ciphers : SameCiphers C P J

/-- The stanzas that carry a file key to an identity. -/
inductive WrappedFor (C : Crates) (identity : C.SecretKey) (fileKey : Bytes 16) : TaggedStanza → Prop
  | v1 (ephemeral : C.SecretKey) :
      WrappedFor C identity fileKey (wrapFileKey C (C.publicKey identity) fileKey ephemeral)
  | v2 (recipient : PairedRecipient C) (ephemeral : C.SecretKey)
      (h : C.publicKey identity = recipient.phoneIdentity) :
      WrappedFor C identity fileKey (wrapFileKeyV2 C recipient fileKey ephemeral)
  | tagged (ephemeral : C.SecretKey) :
      WrappedFor C identity fileKey
        (Tag.wrapWithEphemeral C (C.publicKey identity) fileKey ephemeral)

variable {C : Crates} {m : TextMinicbor} {K : Ios.CryptoKit} {P : Ios.SealingCiphers}
  {J : Android.OfflineEnvelope.Provider}

/-- The identity key of a phone in the hands of its hardware. -/
structure AndroidIdentity (C : Crates) (J : Android.OfflineEnvelope.Provider)
    (identity : C.SecretKey) (identityPublic : J.PublicKey) (agree : J.PublicKey → List Byte) :
    Prop where
  point : C.uncompressedPoint (C.publicKey identity) = encodeUncompressed (J.w identityPublic)
  agrees : ∀ ephemeral peer, C.uncompressedPoint peer = encodeUncompressed (J.w ephemeral) →
    agree ephemeral = C.diffieHellman identity peer

structure IosIdentity (C : Crates) (K : Ios.CryptoKit) (identity : C.SecretKey)
    (identityPublic : K.PublicKey)
    (agree : K.PublicKey → Except Ios.StanzaOpening.OpeningError (List Byte)) : Prop where
  point : K.x963Representation identityPublic = C.uncompressedPoint (C.publicKey identity)
  agrees : ∀ ephemeral peer, K.x963Representation ephemeral = C.uncompressedPoint peer →
    agree ephemeral = .ok (C.diffieHellman identity peer)

theorem wrappedFor_v1 {identity ephemeral : C.SecretKey} {fileKey : Bytes 16} {stanza : TaggedStanza}
    (h : wrapFileKey C (C.publicKey identity) fileKey ephemeral = stanza) :
    WrappedFor C identity fileKey stanza := by
  rw [← h]
  exact .v1 ephemeral

theorem opensAs_of_wrapped {identity : C.SecretKey} {fileKey : Bytes 16} {stanza : TaggedStanza}
    (hsame : SamePlatforms C K P J) (h : WrappedFor C identity fileKey stanza) :
    OpensAs C K P.toCiphers J.toJca identity stanza fileKey := by
  cases h with
  | v1 ephemeral => exact opens_v1 hsame.crates hsame.kit hsame.functions fileKey identity ephemeral
  | v2 recipient ephemeral h =>
      exact opens_v2 hsame.crates hsame.kit hsame.functions fileKey identity ephemeral h
  | tagged ephemeral =>
      exact opens_tagged hsame.crates hsame.kit hsame.functions fileKey identity ephemeral

/-- A request passes the checks as long as it is not expired, whenever it was created. -/
private theorem checkRequest_later {request : SignedUnwrapRequest} {pairing : PairingRecord}
    {now later : U64} {digest : ProtocolDigest}
    (h : checkRequest C request pairing now = .ok digest)
    (hlater : validateRequestTime request.payload.expiresAtUnix later = .ok ()) :
    checkRequest C request pairing later = .ok digest := by
  obtain ⟨hvalid, hscope, -, hsignature, hdigest⟩ := checkRequest_eq_ok.mp h
  exact checkRequest_eq_ok.mpr ⟨hvalid, hscope, hlater, hsignature, hdigest⟩

/-- Any stanza that carries the file key to the phone's identity, in any request that the desktop
creates for the pairing: within its lifetime either phone accepts the request's bytes, unwraps the
file key and seals it into one response, which the desktop decodes and opens to that file key. -/
theorem unwrap_exchange (hsame : SamePlatforms C K P J) {pairing : PairingRecord}
    {identity desktopSession phoneSession : C.SecretKey} {fileKey : Bytes 16}
    {payload : UnwrapRequest} {desktopSigner phoneSigner : P256Signer} {created now : U64}
    {request : VerifiedRequest} {time : Android.Long} {desktopKey : C.PublicKey}
    {kitDesktop : K.PublicKey} {javaDesktop : J.PublicKey}
    -- the desktop's request
    (hwrapped : WrappedFor C identity fileKey payload.recipientStanza)
    (hdesktopSigner : desktopSigner.Ideal C)
    (hcreate : createRequest C payload desktopSigner pairing created = .ok request)
    (hdesktopSession : payload.sessionPublicKey = encodePublic C (C.publicKey desktopSession))
    -- the desktop's key on the phones, and their clocks
    (hdesktopKey : pairing.desktopSigningPublicKey = encodePublic C desktopKey)
    (hkitDesktop : K.x963Representation kitDesktop = C.uncompressedPoint desktopKey)
    (hjavaDesktop : C.uncompressedPoint desktopKey = encodeUncompressed (J.w javaDesktop))
    (hnow : validateRequestTime payload.expiresAtUnix now = .ok ()) (htime : time.1 = now.val)
    -- the session key, the nonce and the signature of the response
    {nonce : ProtocolNonce} {response : SignedUnwrapResponse} {r s : ℕ}
    {javaPublic signingPublic : J.PublicKey} {javaPrivate signingPrivate : J.PrivateKey}
    {kitSession : Ios.SessionKey K} {rawSignature : List Byte → Except Ios.Failure (List Byte)}
    (hphoneSigner : phoneSigner.Ideal C)
    (hphoneKey : phoneSigner.publicKey = .ok pairing.phoneSigningPublicKey)
    (hseal : sealResponse C request fileKey phoneSigner phoneSession nonce = .ok response)
    (hsession : SessionOf C K J phoneSession javaPublic javaPrivate kitSession)
    (hsigning : pairing.phoneSigningPublicKey = encodeCompressed (J.w signingPublic))
    (hr : 0 < r ∧ r < order) (hs : 0 < s ∧ s < order)
    (hsignature : response.signature = compact r (min s (order - s)))
    (hsigned : J.signature signingPrivate
      (domainInput responseSig (encodeResponse response.payload)) =
        Android.SignatureEncoding.compactToDer (compact r s))
    (hraw : rawSignature (domainInput responseSig (encodeResponse response.payload)) =
      .ok (compact r s).1) :
    (∀ identityPublic agree, AndroidIdentity C J identity identityPublic agree →
      ∃ q completed, Android.OfflineEnvelope.verifyRequest J request.encode pairing.desktopId
          pairing.identityId javaDesktop time = .ok q ∧
        Android.TaggedRecipientCrypto.unwrapWithKeyStore J.toJca agree identityPublic
          q.request.stanza = .ok fileKey.1 ∧
        Android.OfflineEnvelope.sealResponse J q fileKey signingPrivate signingPublic
          javaPrivate javaPublic nonce = .ok (completed, SignedUnwrapResponse.encode response)) ∧
    (∀ identityPublic agree, IosIdentity C K identity identityPublic agree →
      ∃ q, Ios.verifyRequest K request.encode pairing.desktopId pairing.identityId kitDesktop now =
          .ok q ∧
        Ios.StanzaOpening.unwrap K P.toCiphers ⟨q.stanza.tag, q.stanza.arguments, q.stanza.body⟩
          identityPublic agree = .ok fileKey.1 ∧
        Ios.sealResponse K P q fileKey kitSession nonce rawSignature =
          .ok (SignedUnwrapResponse.encode response)) ∧
    SignedUnwrapResponse.decode C m (SignedUnwrapResponse.encode response) = .ok response ∧
    ∀ (σ : Type) (store : ReplayStore σ) received replay next,
      validateRequestTime payload.expiresAtUnix received = .ok () →
      store.consumeResponse replay pairing.desktopId pairing.identityId
        (hash C responseSig (SignedUnwrapResponse.encode response)) payload.expiresAtUnix received =
          (.ok (), next) →
      openResponse C store response request pairing desktopSession received replay =
        (.ok fileKey, next) := by
  obtain ⟨hpayload, hcheck⟩ := checkRequest_of_createRequest hdesktopSigner hcreate
  have hvalid : request.For C pairing := .inl ⟨payload, desktopSigner, created, hcreate⟩
  obtain ⟨-, -, -, hdigest⟩ := hvalid.fields
  have hsignedPayload : request.signed.payload = payload := hpayload
  have hlater := checkRequest_later hcheck (by rw [hsignedPayload]; exact hnow)
  have hdecode := decode_of_checkRequest (m := m) hcheck
  have hopens := opensAs_of_wrapped hsame hwrapped
  obtain ⟨_, _, -, -, -, hsign⟩ := sealResponse_eq_ok.mp hseal
  obtain ⟨-, phoneKey, hphone, hverify⟩ := hphoneSigner _ _ _ hphoneKey hsign
  refine ⟨?_, ?_, decode_of_sealResponse hseal, ?_⟩
  · intro identityPublic agree hidentity
    obtain ⟨q, haccepted, hq, -, hfound⟩ := android_verifies hsame.crates hsame.verifiers hdesktopKey
      hjavaDesktop htime hdecode hlater
    obtain ⟨completed, hcompleted⟩ := android_sealResponse hsame.crates hsame.verifiers hsame.ciphers
      hq hfound hsession hseal (key_of_encoding hsame.crates hphone hsigning) hverify hr hs hsignature
      hsigned
    have hunwrap := hopens.android identityPublic agree hidentity.point hidentity.agrees
    rw [← hsignedPayload, ← hq.stanza] at hunwrap
    exact ⟨q, completed, haccepted, hunwrap, hcompleted⟩
  · intro identityPublic agree hidentity
    obtain ⟨q, haccepted, hq, -⟩ := ios_verifies hsame.crates hsame.verifiers hdesktopKey hsame.kit
      hkitDesktop hdecode hlater
    have hunwrap := hopens.ios identityPublic agree hidentity.point hidentity.agrees
    rw [← hsignedPayload, iosStanza, ← hq.tag, ← hq.arguments, ← hq.body] at hunwrap
    exact ⟨q, haccepted, hunwrap, ios_sealResponse hsame.crates hsame.kit hsame.verifiers.iosHash
      hsame.ciphers hq hdigest hsession hseal hs hsignature hraw⟩
  · intro σ store received replay next hreceived hconsumed
    rw [← hsignedPayload] at hreceived hconsumed
    exact openResponse_eq_ok.mpr ⟨openChecked_of_sealResponse hvalid hphoneSigner hphoneKey
      (by rw [hpayload]; exact hdesktopSession) hseal hreceived, hconsumed⟩

section Sample

private def exchangedKey : Bytes 16 := Bytes.replicate 16 4

private def exchangedBody : Bytes 32 :=
  number 32 0x17634f75ad3b1aac72ca1b3e20a306d1191f8106c73e4b8b0f6b4803d76b5e9c

/-- The sample request with a stanza that carries a file key to the sample identity. -/
private def exchangedPayload : UnwrapRequest :=
  { sampleRequest with
    recipientStanza := ⟨stanzaTag, [Base64.encode (encodeCompressed ephemeralPoint)], exchangedBody⟩ }

private def exchangedRequest : VerifiedRequest :=
  ⟨⟨exchangedPayload, compact 0x8e533b6fa0bf7b4625bb30667c01fb607ef9f8b8a80fef5b300628703187b2a3
      0x309846e56369e68ab4b928f5d7fd3210b9caf654fa76bb4f23f89ed28b4ee5c⟩,
    number 32 0x3e79265d39e72b3baf68104ce2c83e734c3593a1b03a5182e9ac0c7ba40acd9e⟩

private def exchangedResponse : SignedUnwrapResponse where
  payload := exchangedRequest.answer (encodeCompressed phoneSessionPoint) (Bytes.replicate 32 9)
    (number 32 0xd069c6b0b24724fe46c2bfb366227af3fa5d63d1964f9d87cdb87b2835b5059b)
  signature := compact 0x8e533b6fa0bf7b4625bb30667c01fb607ef9f8b8a80fef5b300628703187b2a3
    0x7cd061dfc02ba61a8dfb059bbc2635e4b5fa8f9e1eec294a93180e61f34e2bfa

/-- The cryptography of one exchange from the wrapping of the file key to its return. -/
private def exchangeTable : CryptoTable where
  digests := [
    (domainInput requestSig (encodeRequest exchangedPayload),
      0xce16ea1a6302b49905789d47797d43572a913824d07b6c60e7aa7f2978c460d8),
    (domainInput requestDigest (SignedUnwrapRequest.encode exchangedRequest.signed),
      0x3e79265d39e72b3baf68104ce2c83e734c3593a1b03a5182e9ac0c7ba40acd9e),
    (domainInput responseSig (encodeResponse exchangedResponse.payload),
      0x5d00651d3bd0883387361723eaec993b77a80fdc71d8d8a6f099ba237d10e184)]
  signatures := [
    (desktopSigningPoint,
      number 32 0xce16ea1a6302b49905789d47797d43572a913824d07b6c60e7aa7f2978c460d8,
      exchangedRequest.signed.signature),
    (phoneSigningPoint,
      number 32 0x5d00651d3bd0883387361723eaec993b77a80fdc71d8d8a6f099ba237d10e184,
      exchangedResponse.signature)]
  secrets := [
    (ephemeralPoint, identityPoint,
      0xb01a172a76a4602c92d3242cb897dde3024c740debb215b4c6b0aae93c2291a9),
    (desktopSessionPoint, phoneSessionPoint,
      0xd58d4a589ed27d168ffa3ad7326c48ca94e8e1fe92af9700a12d389033bb291a)]
  macs := [
    ((encodeCompressed ephemeralPoint).1 ++ (encodeCompressed identityPoint).1,
      (number 32 0xb01a172a76a4602c92d3242cb897dde3024c740debb215b4c6b0aae93c2291a9).1,
      0x0e89b01ff844a412230ba644a8b252e0c6885b933760c7d9bfb5571a991eb120),
    ((number 32 0x0e89b01ff844a412230ba644a8b252e0c6885b933760c7d9bfb5571a991eb120).1,
      kdfInfo ++ [1], 0x38f77824628f79e4278707f0fdb6c1a21008298c540ebccb56f51e1dee898829),
    (exchangedRequest.digest.1 ++ List.replicate 32 9,
      (number 32 0xd58d4a589ed27d168ffa3ad7326c48ca94e8e1fe92af9700a12d389033bb291a).1,
      0x207b016d7a4d3dc76f1552400dbcf9f13e5eeb18a0bd4e29d2e446d296e1bfa5),
    ((number 32 0x207b016d7a4d3dc76f1552400dbcf9f13e5eeb18a0bd4e29d2e446d296e1bfa5).1,
      sessionInfo ++ [1], 0x932f1a4efc7bc72b00f7482eebec6fcb7cd8b19733f38852e32abe27e825ccff)]
  streams := [
    (number 32 0x38f77824628f79e4278707f0fdb6c1a21008298c540ebccb56f51e1dee898829,
      0x13674b71a93f1ea876ce1f3a24a702d5),
    (number 32 0x932f1a4efc7bc72b00f7482eebec6fcb7cd8b19733f38852e32abe27e825ccff,
      0xd46dc2b4b64320fa42c6bbb762267ef7)]
  tags := [
    (number 32 0x38f77824628f79e4278707f0fdb6c1a21008298c540ebccb56f51e1dee898829,
      associatedData (encodeCompressed ephemeralPoint) (encodeCompressed identityPoint),
      (number 16 0x17634f75ad3b1aac72ca1b3e20a306d1).1, 0x191f8106c73e4b8b0f6b4803d76b5e9c),
    (number 32 0x932f1a4efc7bc72b00f7482eebec6fcb7cd8b19733f38852e32abe27e825ccff,
      responseAad exchangedResponse.payload,
      (number 16 0xd069c6b0b24724fe46c2bfb366227af3).1, 0xfa5d63d1964f9d87cdb87b2835b5059b)]

private def exchangeCiphers : Ios.SealingCiphers where
  toCiphers := ciphersOfTable exchangeTable
  sealBox key _ message aad := (exchangeTable.sealMessage key aad message, [])

/-- A signer of one message of the exchange. -/
private def exchangeSigner (key : Point) (digest : ProtocolDigest) (signature : Bytes 64) :
    P256Signer where
  publicKey := .ok (encodeCompressed key)
  signPrehash found := if found = digest then .ok signature else .error .keyOperation

private theorem exchangeSigner_ideal {key : Point} {digest : ProtocolDigest} {signature : Bytes 64}
    (hlow : IsLowS signature) (hverify : exchangeTable.verify key digest signature = true) :
    (exchangeSigner key digest signature).Ideal (paddedCrates exchangeTable) := by
  intro encoded found made hkey hsign
  simp only [exchangeSigner, Except.ok.injEq] at hkey hsign
  split_ifs at hsign with hfound
  cases hsign
  subst hkey hfound
  exact ⟨hlow, key, ofTable_fromSec1Bytes exchangeTable key, hverify⟩

private theorem exchange_same : SamePlatforms (paddedCrates exchangeTable) (kitOfTable exchangeTable)
    exchangeCiphers (providerOfTable exchangeTable) := by
  have hverifiers := ofTable_sameVerifiers exchangeTable
  exact ⟨paddedCrates_points exchangeTable, kitOfTable_points exchangeTable,
    tables_same exchangeTable,
    ⟨hverifiers.iosHash, hverifiers.androidHash, hverifiers.iosVerify, hverifiers.androidVerify⟩,
    ⟨rfl, rfl, rfl, fun _ _ _ _ => List.append_nil _⟩⟩

private def desktopRequestSigner : P256Signer :=
  exchangeSigner desktopSigningPoint
    (number 32 0xce16ea1a6302b49905789d47797d43572a913824d07b6c60e7aa7f2978c460d8)
    exchangedRequest.signed.signature

private def phoneResponseSigner : P256Signer :=
  exchangeSigner phoneSigningPoint
    (number 32 0x5d00651d3bd0883387361723eaec993b77a80fdc71d8d8a6f099ba237d10e184)
    exchangedResponse.signature

/-- What the desktop wraps and asks for, and what the phone answers. -/
private theorem exchange_values :
    wrapFileKey (paddedCrates exchangeTable) ((paddedCrates exchangeTable).publicKey identityPoint)
        exchangedKey ephemeralPoint = exchangedPayload.recipientStanza ∧
    createRequest (paddedCrates exchangeTable) exchangedPayload desktopRequestSigner samplePairing
        1000 = .ok exchangedRequest ∧
    sealResponse (paddedCrates exchangeTable) exchangedRequest exchangedKey phoneResponseSigner
        phoneSessionPoint (Bytes.replicate 32 9) = .ok exchangedResponse := by
  refine ⟨by decide +kernel, ?_, by decide +kernel⟩
  have hvalid : validateRequest (paddedCrates exchangeTable) exchangedPayload = .ok () := by
    decide +kernel
  exact createRequest_eq_ok.mpr ⟨⟨rfl, rfl, rfl⟩, by decide, hvalid,
    exchangedRequest.signed.signature, by decide +kernel, by decide +kernel⟩

private def exchangeKitSession : Ios.SessionKey (kitOfTable exchangeTable) where
  publicKey := phoneSessionPoint
  sharedSecretFromKeyAgreement peer := .ok (exchangeTable.agree phoneSessionPoint peer)

private theorem exchangeSession : SessionOf (paddedCrates exchangeTable) (kitOfTable exchangeTable)
    (providerOfTable exchangeTable) phoneSessionPoint phoneSessionPoint phoneSessionPoint
    exchangeKitSession := by
  refine ⟨rfl, rfl, ?_, ?_⟩
  · intro peer key hpoint
    obtain rfl : key = peer := uncompressed_injective hpoint
    rfl
  · intro peer key hpoint
    obtain rfl : peer = key := uncompressed_injective hpoint
    rfl

private theorem exchange_range (s : ℕ) (h : 0 < s ∧ s < order ∧ s ≤ order / 2) :
    (0 < s ∧ s < order) ∧ min s (order - s) = s :=
  ⟨⟨h.1, h.2.1⟩, min_negative_of_low h.2.2⟩

private def exchangeRaw (message : List Byte) : Except Ios.Failure (List Byte) :=
  .ok (tableSignature exchangeTable phoneSigningPoint message)

/-- The store of a desktop that has seen no response. -/
private def exchangeStore : ReplayStore (List ProtocolDigest) where
  consumeRequest replay _ _ _ _ _ _ := (.error .replayState, replay)
  consumeResponse replay _ _ digest _ _ :=
    if replay.any (· = digest) then (.error .replay, replay) else (.ok (), digest :: replay)

/-- One file key, wrapped for the sample identity, comes back through the Android phone. -/
theorem unwrap_exchange_sample :
    (∃ q completed, Android.OfflineEnvelope.verifyRequest (providerOfTable exchangeTable)
        exchangedRequest.encode samplePairing.desktopId samplePairing.identityId
        desktopSigningPoint ⟨1050, by decide, by decide⟩ = .ok q ∧
      Android.TaggedRecipientCrypto.unwrapWithKeyStore (jcaOfTable exchangeTable)
        (fun peer => exchangeTable.agree identityPoint peer) identityPoint q.request.stanza =
          .ok exchangedKey.1 ∧
      Android.OfflineEnvelope.sealResponse (providerOfTable exchangeTable) q exchangedKey
        phoneSigningPoint phoneSigningPoint phoneSessionPoint phoneSessionPoint
        (Bytes.replicate 32 9) = .ok (completed, SignedUnwrapResponse.encode exchangedResponse)) ∧
    openResponse (paddedCrates exchangeTable) exchangeStore exchangedResponse exchangedRequest
      samplePairing desktopSessionPoint 1060 [] =
        (.ok exchangedKey, [hash (paddedCrates exchangeTable) responseSig
          (SignedUnwrapResponse.encode exchangedResponse)]) := by
  have hfound : tableSignature exchangeTable phoneSigningPoint
      (domainInput responseSig (encodeResponse exchangedResponse.payload)) =
        exchangedResponse.signature := by
    decide +kernel
  have hr : 0 < 0x8e533b6fa0bf7b4625bb30667c01fb607ef9f8b8a80fef5b300628703187b2a3 ∧
      0x8e533b6fa0bf7b4625bb30667c01fb607ef9f8b8a80fef5b300628703187b2a3 < order := by
    norm_num [order]
  obtain ⟨hs, hmin⟩ := exchange_range
    0x7cd061dfc02ba61a8dfb059bbc2635e4b5fa8f9e1eec294a93180e61f34e2bfa (by norm_num [order])
  have hsignature : exchangedResponse.signature =
      compact 0x8e533b6fa0bf7b4625bb30667c01fb607ef9f8b8a80fef5b300628703187b2a3
        (min 0x7cd061dfc02ba61a8dfb059bbc2635e4b5fa8f9e1eec294a93180e61f34e2bfa
          (order - 0x7cd061dfc02ba61a8dfb059bbc2635e4b5fa8f9e1eec294a93180e61f34e2bfa)) := by
    rw [hmin]
    rfl
  have hcompact : exchangedResponse.signature =
      compact 0x8e533b6fa0bf7b4625bb30667c01fb607ef9f8b8a80fef5b300628703187b2a3
        0x7cd061dfc02ba61a8dfb059bbc2635e4b5fa8f9e1eec294a93180e61f34e2bfa := rfl
  have hsigned : (providerOfTable exchangeTable).signature phoneSigningPoint
      (domainInput responseSig (encodeResponse exchangedResponse.payload)) =
        Android.SignatureEncoding.compactToDer
          (compact 0x8e533b6fa0bf7b4625bb30667c01fb607ef9f8b8a80fef5b300628703187b2a3
            0x7cd061dfc02ba61a8dfb059bbc2635e4b5fa8f9e1eec294a93180e61f34e2bfa) := by
    rw [← hcompact, ← hfound]
    rfl
  have hraw : exchangeRaw (domainInput responseSig (encodeResponse exchangedResponse.payload)) =
      .ok (compact 0x8e533b6fa0bf7b4625bb30667c01fb607ef9f8b8a80fef5b300628703187b2a3
        0x7cd061dfc02ba61a8dfb059bbc2635e4b5fa8f9e1eec294a93180e61f34e2bfa).1 := by
    rw [← hcompact, exchangeRaw, hfound]
  have hdesktopIdeal : desktopRequestSigner.Ideal (paddedCrates exchangeTable) :=
    exchangeSigner_ideal (by decide +kernel) (by decide +kernel)
  have hphoneIdeal : phoneResponseSigner.Ideal (paddedCrates exchangeTable) :=
    exchangeSigner_ideal (by decide +kernel) (by decide +kernel)
  have hdesktopSession : exchangedPayload.sessionPublicKey = encodePublic (paddedCrates exchangeTable)
      ((paddedCrates exchangeTable).publicKey desktopSessionPoint) :=
    (encodePublic_ofTable exchangeTable desktopSessionPoint).symm
  have hdesktopKey : samplePairing.desktopSigningPublicKey =
      encodePublic (paddedCrates exchangeTable) desktopSigningPoint :=
    (encodePublic_ofTable exchangeTable desktopSigningPoint).symm
  have hkit : (kitOfTable exchangeTable).x963Representation desktopSigningPoint =
      (paddedCrates exchangeTable).uncompressedPoint desktopSigningPoint := rfl
  have hjava : (paddedCrates exchangeTable).uncompressedPoint desktopSigningPoint =
      encodeUncompressed ((providerOfTable exchangeTable).w desktopSigningPoint) := rfl
  have hnow : validateRequestTime exchangedPayload.expiresAtUnix 1050 = .ok () := by decide
  have htime : (⟨1050, by decide, by decide⟩ : Android.Long).1 = ((1050 : U64).val : ℤ) := rfl
  have hsigning : samplePairing.phoneSigningPublicKey =
      encodeCompressed ((providerOfTable exchangeTable).w phoneSigningPoint) := rfl
  have hidentity : AndroidIdentity (paddedCrates exchangeTable) (providerOfTable exchangeTable)
      identityPoint identityPoint (fun peer => exchangeTable.agree identityPoint peer) := by
    refine ⟨rfl, ?_⟩
    intro peer key hpoint
    obtain rfl : key = peer := uncompressed_injective hpoint
    rfl
  obtain ⟨hstanza, hcreated, hsealed⟩ := exchange_values
  obtain ⟨handroid, -, -, hopen⟩ := unwrap_exchange (m := .definite) exchange_same
    (wrappedFor_v1 hstanza) hdesktopIdeal hcreated hdesktopSession hdesktopKey hkit hjava hnow htime
    hphoneIdeal rfl hsealed exchangeSession hsigning hr hs hsignature hsigned hraw
  exact ⟨handroid identityPoint _ hidentity, hopen _ exchangeStore 1060 [] _ (by decide) rfl⟩

end Sample

end AgePluginPhone.Phone.Envelope
