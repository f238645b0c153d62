import AgePluginPhone.Android.PairingOneShot
import AgePluginPhone.Phone.PairingAgreement

/-!
# What a confirmed pairing binds

The pairing screens of Android over its envelope, beside the desktop's session: where both users
confirm one fingerprint, both sides keep the same pairing.
-/

namespace AgePluginPhone.Phone.Envelope

open Library Cbor P256 AgePluginPhone.Core AgePluginPhone.Phone.Stanza

section Platform

variable (J : Android.OfflineEnvelope.Provider)

/-- `encodeCompressed (decodeRecipient recipient)`. -/
def identityPublic (recipient : String) : Option (Bytes 33) :=
  (Android.TaggedRecipientCrypto.decodeRecipient J.toJca J.lowercase recipient).toOption.map
    fun key => encodeCompressed (J.w key)

private theorem toOption_eq_some {ε α : Type} {result : Except ε α} {a : α} :
    result.toOption = some a ↔ result = .ok a := by
  cases result <;> simp [Except.toOption]

theorem identityPublic_length (recipient : String) (key : Bytes 33)
    (h : identityPublic J recipient = some key) : (utf8 recipient).length ≤ 90 := by
  obtain ⟨found, hfound, -⟩ := Option.map_eq_some_iff.mp h
  have htext := (Android.TaggedRecipientCrypto.decodeRecipient_eq_ok J.lowercase_ascii).mp
    (toOption_eq_some.mp hfound)
  rw [Android.TaggedRecipientCrypto.encodeRecipient_eq, Except.ok.injEq] at htext
  have hhrp : (utf8 Android.TaggedRecipientCrypto.recipientHrp).length = 9 := by decide +kernel
  have hwords : (Android.TaggedRecipientCrypto.payloadWords found).length = 55 := by
    simp [Android.TaggedRecipientCrypto.payloadWords, Bech32.wordsOf_length,
      (encodeCompressed (J.w found)).2]
  rw [← htext, Bech32.encode_length, hhrp, hwords]
  decide

/-- What the pairing store takes from the platform, over the envelope's own provider. -/
def platformOf : Android.Platform where
  readTree := J.readTree
  readTree_encode := J.readTree_encode
  identityPublic := identityPublic J
  identityPublic_length := identityPublic_length J
  decodeCompressed bytes := (Android.OfflineEnvelope.decodeCompressed J bytes).toOption.isSome
  sha256 := J.sha256

/-- A verified offer, with its keys compressed. -/
def keptOffer (o : Android.OfflineEnvelope.VerifiedPairingOffer J) : Android.VerifiedPairingOffer where
  desktopId := o.offer.desktopId
  desktopLabel := o.offer.desktopLabel
  desktopSigningPublicKey := encodeCompressed (J.w o.offer.desktopSigningPublicKey)
  desktopSelectionPublicKey := encodeCompressed (J.w o.offer.desktopSelectionPublicKey)
  encoded := o.encoded
  digest := o.digest

def keptResponse (v : Android.OfflineEnvelope.VerifiedPairingResponse J) :
    Android.VerifiedPairingResponse where
  identityId := v.response.identityId
  recipient := v.response.recipient
  phoneSigningPublicKey := encodeCompressed (J.w v.response.phoneSigningPublicKey)
  encoded := v.encoded

/-- The envelope as the pairing screens use it. The offer they pass on is the one its bytes verify
to. -/
def envelopeOf : Android.OfflineEnvelopeCrypto where
  verifyPairingOffer encoded :=
    (Android.OfflineEnvelope.verifyPairingOffer J encoded).toOption.map (keptOffer J)
  verifyPairingResponse encoded offer :=
    (Android.OfflineEnvelope.verifyPairingOffer J offer.encoded).toOption.bind fun o =>
      (Android.OfflineEnvelope.verifyPairingResponse J encoded o).toOption.map (keptResponse J)

end Platform

variable {C : Crates} {m : TextMinicbor} {K : Ios.CryptoKit}
  {J : Android.OfflineEnvelope.Provider}

/-- The stub of a transcript. -/
def stubOf (C : Crates) (offer : SignedPairingOffer) (response : SignedPairingResponse) :
    Desktop.PublicIdentityStub :=
  (⟨offer, 0, .waiting⟩ : Desktop.DesktopPairingSession).stubFromResponse C response
    (pairingFingerprint C offer response)

/-- The record that Android keeps of the pairing a stub stands for. -/
def recordOf (stub : Desktop.PublicIdentityStub) (label : String) : Android.StoredPairingRecord where
  desktopId := stub.desktopId
  identityId := stub.identityId
  desktopLabel := label
  recipient := stub.recipient
  desktopSigningPublicKey := stub.desktopSigningPublicKey
  desktopSelectionPublicKey := stub.desktopSelectionPublicKey
  phoneSigningPublicKey := stub.phoneSigningPublicKey
  offerDigest := stub.offerDigest
  transcriptFingerprint := stub.transcriptFingerprint

section Sessions

open Android.PairingConfirmationSession (encodeFingerprint beginWithCreator)

/-- The digests of the desktop and of Android are displayed alike. -/
theorem hex_eq_encodeFingerprint {digest other : ProtocolDigest}
    (h : Desktop.hex digest = encodeFingerprint other.1) : digest = other := by
  have hread := Android.PairingConfirmationSession.decodeCanonicalFingerprint_eq_some.mpr
    (rfl : encodeFingerprint digest.1 = _)
  have hsame : encodeFingerprint digest.1 = encodeFingerprint other.1 := h
  rw [hsame, Android.PairingConfirmationSession.decodeCanonicalFingerprint_eq_some.mpr rfl,
    Option.some.injEq] at hread
  exact Subtype.ext hread.symm

/-- The record of a verified transcript. -/
theorem record_eq (hsame : SameVerifiers C K J) {offer : SignedPairingOffer}
    {response : SignedPairingResponse} {o : Android.OfflineEnvelope.VerifiedPairingOffer J}
    {v : Android.OfflineEnvelope.VerifiedPairingResponse J}
    (hreads : AndroidReadsOffer J offer.payload o.offer)
    (hencoded : o.encoded = SignedPairingOffer.encode offer)
    (hdigest : o.digest = SignedPairingOffer.digest C offer)
    (hanswer : AndroidReadsResponse J response.payload v.response)
    (hv : v.encoded = SignedPairingResponse.encode response) :
    Android.StoredPairingRecord.fromVerifiedTranscript (platformOf J) (keptOffer J o)
      (keptResponse J v) = recordOf (stubOf C offer response) offer.payload.desktopLabel := by
  have hfingerprint : Android.pairingFingerprint (platformOf J) (keptOffer J o) (keptResponse J v) =
      pairingFingerprint C offer response := by
    rw [Android.pairingFingerprint, platformOf, hsame.androidHash, keptOffer, keptResponse, hencoded,
      hv]
    rfl
  rw [Android.StoredPairingRecord.fromVerifiedTranscript, hfingerprint]
  simp only [keptOffer, keptResponse, hreads.desktopId, hreads.label, hreads.signing,
    hreads.selection, hanswer.identityId, hanswer.recipient, hanswer.signing, hdigest]
  rfl

/-- A session of Android holds what the desktop reads from its transcript. -/
theorem begin_reads (hC : CratePoints C) (hsame : SameVerifiers C K J)
    {signedOffer signedResponse : List Byte} {session : Android.PairingConfirmationSession}
    (h : beginWithCreator (platformOf J) (envelopeOf J) signedOffer signedResponse = .ok session) :
    ∃ offer response, OfferAccepted C m signedOffer offer ∧
      ResponseAccepted C m offer signedResponse response ∧
      session.expectedFingerprint = pairingFingerprint C offer response ∧
      session.record = recordOf (stubOf C offer response) offer.payload.desktopLabel := by
  simp only [beginWithCreator, envelopeOf, bind_eq_ok, okOr_eq_ok, pure_eq_ok, Except.ok.injEq,
    Option.map_eq_some_iff, Option.bind_eq_some_iff, toOption_eq_some] at h
  obtain ⟨_, ⟨o, ho, rfl⟩, _, ⟨again, hagain, v, hv, rfl⟩, _, -, rfl⟩ := h
  obtain ⟨offer, hoffer, hreads, hencoded, hdigest⟩ :=
    (android_verifyPairingOffer_eq_ok (m := m) hC hsame).mp ho
  have hsameOffer : again = o := by
    rw [show (keptOffer J o).encoded = signedOffer from hencoded, ho] at hagain
    exact (Except.ok.inj hagain).symm
  subst hsameOffer
  have hb := (SignedPairingOffer.decode_eq_ok.mp hoffer.decoded).1
  have hsum : again.digest = SignedPairingOffer.digest C offer := by
    rw [hdigest, hb]
    rfl
  obtain ⟨response, hresponse, hanswer, hvEncoded⟩ :=
    (android_verifyPairingResponse_eq_ok (m := m) hC hsame hoffer.verified hreads hsum).mp hv
  have hbytes := (SignedPairingResponse.decode_eq_ok.mp hresponse.decoded).1
  have hrecord := record_eq hsame hreads (hencoded.trans hb) hsum hanswer (hvEncoded.trans hbytes)
  exact ⟨offer, response, hoffer, hresponse, congrArg (·.transcriptFingerprint) hrecord, hrecord⟩

end Sessions

section HonestRuns

open Android.PairingConfirmationSession (encodeFingerprint beginWithCreator)
open Desktop.DesktopPairingSession (InTime)

variable {offer : SignedPairingOffer} {response : SignedPairingResponse} {encoded : List Byte}
  {startedAtMs receivedMs confirmedMs : U64}

private theorem ensureLive_inTime {s : Desktop.DesktopPairingSession} {nowMs : U64}
    (hopen : s.state ≠ .closed) (h : InTime s.startedAtMs nowMs) :
    s.ensureLive nowMs = (.ok (), s) := by
  obtain ⟨offer, startedAtMs, state⟩ := s
  have hlate : ¬ (nowMs < startedAtMs ∨
      Desktop.maxPairingSessionAgeMs < nowMs.val - startedAtMs.val) := by
    have hend : nowMs.val ≤ startedAtMs.val + Desktop.maxPairingSessionAgeMs := h.2
    rw [not_or, not_lt, not_lt]
    exact ⟨h.1, by omega⟩
  cases state with
  | closed => exact absurd rfl hopen
  | waiting => rw [Desktop.DesktopPairingSession.ensureLive, if_neg hlate]
  | confirming found fingerprint => rw [Desktop.DesktopPairingSession.ensureLive, if_neg hlate]

/-- A desktop that receives an acceptable response and the fingerprint of the transcript, in time. -/
theorem desktop_confirms (hdecode : SignedPairingResponse.decode C m encoded = .ok response)
    (hverify : SignedPairingResponse.verify C response offer = .ok ())
    (hreceived : InTime startedAtMs receivedMs) (hconfirmed : InTime startedAtMs confirmedMs) :
    Desktop.DesktopPairingSession.log C m offer startedAtMs
        [.receiveResponse encoded receivedMs,
          .confirm (Desktop.hex (pairingFingerprint C offer response)) confirmedMs] =
      [⟨.receiveResponse encoded receivedMs, .ok (.display ⟨offer.payload.desktopLabel,
          Desktop.hex (pairingFingerprint C offer response)⟩)⟩,
        ⟨.confirm (Desktop.hex (pairingFingerprint C offer response)) confirmedMs,
          .ok (.confirmed (stubOf C offer response))⟩] := by
  have hverified : (⟨offer, startedAtMs, .waiting⟩ : Desktop.DesktopPairingSession).verified C m
      encoded = .ok response := by
    rw [Desktop.DesktopPairingSession.verified, hdecode, ok_bind, hverify]
    rfl
  have hreceive : (⟨offer, startedAtMs, .waiting⟩ : Desktop.DesktopPairingSession).receiveResponse
      C m encoded receivedMs = (.ok ⟨offer.payload.desktopLabel,
        Desktop.hex (pairingFingerprint C offer response)⟩,
        ⟨offer, startedAtMs, .confirming response (pairingFingerprint C offer response)⟩) := by
    simp only [Desktop.DesktopPairingSession.receiveResponse,
      ensureLive_inTime (s := ⟨offer, startedAtMs, .waiting⟩) (by simp) hreceived, hverified]
  have hconfirm : (⟨offer, startedAtMs, .confirming response (pairingFingerprint C offer response)⟩ :
      Desktop.DesktopPairingSession).confirm C
        (Desktop.hex (pairingFingerprint C offer response)) confirmedMs =
      (.ok (stubOf C offer response), ⟨offer, startedAtMs, .closed⟩) := by
    simp only [Desktop.DesktopPairingSession.confirm, ensureLive_inTime
      (s := ⟨offer, startedAtMs, .confirming response (pairingFingerprint C offer response)⟩)
      (by simp) hconfirmed, ne_eq, not_true_eq_false, if_false]
    rfl
  simp only [Desktop.DesktopPairingSession.log, Machine.emitted, Desktop.DesktopPairingSession.step,
    Desktop.DesktopPairingSession.entry, Desktop.DesktopPairingSession.run, hreceive, hconfirm]
  rfl

private theorem decodes (hC : CratePoints C) (key : C.PublicKey) :
    (platformOf J).decodeCompressed (encodePublic C key) = true := by
  obtain ⟨javaKey, -, hkey⟩ := android_of_crate (J := J) hC key
  have hdecode := android_decodeCompressed_eq_ok.mpr hkey
  exact (congrArg (fun result => result.toOption.isSome) hdecode).trans rfl

/-- The record of an accepted transcript passes the check of the store. -/
theorem record_valid (hC : CratePoints C) {b bytes : List Byte} (hoffer : OfferAccepted C m b offer)
    (hresponse : ResponseAccepted C m offer bytes response) :
    Android.validateRecord (platformOf J)
      (recordOf (stubOf C offer response) offer.payload.desktopLabel) = .ok () := by
  obtain ⟨-, -, hlabel⟩ := SignedPairingOffer.decode_eq_ok.mp hoffer.decoded
  obtain ⟨-, ⟨selection, hselection⟩, hne, -⟩ := SignedPairingOffer.verify_eq_ok.mp hoffer.verified
  obtain ⟨signing, hsigning⟩ := hoffer.compressed
  obtain ⟨-, -, ⟨identity, hfits⟩, phone, hphone, -⟩ :=
    (responseAccepted_iff hoffer.verified).mp hresponse
  obtain ⟨javaIdentity, hpoint, hidentity⟩ := android_of_crate (J := J) hC identity
  have hpublic : (platformOf J).identityPublic response.payload.recipient =
      some (encodePublic C identity) := by
    have hdecode := (android_decodeRecipient_eq_ok hC).mpr ⟨identity, hfits.recipient, hpoint⟩
    rw [← hidentity]
    exact Option.map_eq_some_iff.mpr ⟨javaIdentity, toOption_eq_some.mpr hdecode, rfl⟩
  have hapart := hfits.apart
  have hkeys : (platformOf J).decodeCompressed offer.payload.desktopSigningPublicKey = true ∧
      (platformOf J).decodeCompressed offer.payload.desktopSelectionPublicKey = true ∧
      (platformOf J).decodeCompressed response.payload.phoneSigningPublicKey = true := by
    rw [hsigning, hselection, hphone]
    exact ⟨decodes hC signing, decodes hC selection, decodes hC phone⟩
  simp only [Android.validateRecord, bind_eq_ok, ensure_eq_ok, exists_const, okOr_eq_ok]
  exact ⟨hlabel, _, hpublic, hkeys, hapart.identity.1, hapart.identity.2, hapart.own, hne.symm,
    hapart.phone.2.symm, hapart.phone.1.symm⟩

/-- Android begins a session on every transcript that the desktop accepts. -/
theorem android_begins (hC : CratePoints C) (hsame : SameVerifiers C K J) {b bytes : List Byte}
    (hoffer : OfferAccepted C m b offer) (hresponse : ResponseAccepted C m offer bytes response) :
    ∃ session, beginWithCreator (platformOf J) (envelopeOf J) b bytes = .ok session ∧
      session.record = recordOf (stubOf C offer response) offer.payload.desktopLabel ∧
      session.expectedFingerprint = pairingFingerprint C offer response ∧
      session.display = ⟨offer.payload.desktopLabel,
        encodeFingerprint (pairingFingerprint C offer response).1⟩ := by
  have hb := (SignedPairingOffer.decode_eq_ok.mp hoffer.decoded).1
  have hbytes := (SignedPairingResponse.decode_eq_ok.mp hresponse.decoded).1
  obtain ⟨o, hreads, hencoded, hdigest⟩ := android_readings (J := J) hC hoffer
  have ho := (android_verifyPairingOffer_eq_ok hC hsame).mpr ⟨offer, hoffer, hreads, hencoded, hdigest⟩
  have hsum : o.digest = SignedPairingOffer.digest C offer := by
    rw [hdigest, hb]
    rfl
  obtain ⟨v, hanswer, hvEncoded⟩ := android_answers (J := J) hC hresponse
  have hv := (android_verifyPairingResponse_eq_ok hC hsame hoffer.verified hreads hsum).mpr
    ⟨response, hresponse, hanswer, hvEncoded⟩
  have hrecord := record_eq hsame hreads (hencoded.trans hb) hsum hanswer (hvEncoded.trans hbytes)
  have hvalid := record_valid (J := J) hC hoffer hresponse
  rw [← hrecord] at hvalid
  have hagain : Android.OfflineEnvelope.verifyPairingOffer J (keptOffer J o).encoded = .ok o := by
    rw [show (keptOffer J o).encoded = b from hencoded]
    exact ho
  have hbegin : beginWithCreator (platformOf J) (envelopeOf J) b bytes = .ok
      ⟨⟨(keptOffer J o).desktopLabel, encodeFingerprint (Android.pairingFingerprint (platformOf J)
          (keptOffer J o) (keptResponse J v)).1⟩,
        Android.StoredPairingRecord.fromVerifiedTranscript (platformOf J) (keptOffer J o)
          (keptResponse J v), Android.pairingFingerprint (platformOf J) (keptOffer J o)
          (keptResponse J v), false⟩ := by
    simp only [beginWithCreator, envelopeOf, bind_eq_ok, okOr_eq_ok, pure_eq_ok,
      Option.map_eq_some_iff, Option.bind_eq_some_iff, toOption_eq_some, mapError_ok]
    exact ⟨_, ⟨o, ho, rfl⟩, _, ⟨o, hagain, v, hv, rfl⟩, (), hvalid, rfl⟩
  have hfingerprint : Android.pairingFingerprint (platformOf J) (keptOffer J o) (keptResponse J v) =
      pairingFingerprint C offer response := congrArg (·.transcriptFingerprint) hrecord
  refine ⟨_, hbegin, hrecord, hfingerprint, ?_⟩
  rw [hfingerprint]
  exact congrArg (fun label => (⟨label, _⟩ : Android.PairingConfirmationDisplay)) hreads.label

/-- A session that the user confirms with its fingerprint calls the creator. -/
theorem android_confirms {p : Android.Platform} {crypto : Android.OfflineEnvelopeCrypto}
    {signedOffer signedResponse : List Byte} {session : Android.PairingConfirmationSession}
    (hbegin : beginWithCreator p crypto signedOffer signedResponse = .ok session) {Storage : Type}
    (creator : Android.PairingStateCreator Storage) (storage : Storage) (nowUnix : Android.Long) :
    Android.PairingConfirmation.log p crypto storage
        [.call (.begin signedOffer signedResponse), .resume 0,
          .call (.confirm (encodeFingerprint session.expectedFingerprint.1) nowUnix creator),
          .resume 0] =
      [.began signedOffer signedResponse (.ok 0), .registered 0 (.ok session.display), .took 0,
        .confirmed 0 (encodeFingerprint session.expectedFingerprint.1) nowUnix
          (session.commit (creator session.record nowUnix storage).1)
          (some (creator session.record nowUnix storage).1)] := by
  obtain ⟨hopen, -⟩ := Android.PairingConfirmationSession.beginWithCreator_eq_ok hbegin
  have hconfirm : session.confirm (encodeFingerprint session.expectedFingerprint.1) nowUnix creator
      storage = ⟨session.commit (creator session.record nowUnix storage).1,
        some (creator session.record nowUnix storage).1, session.cancel,
        (creator session.record nowUnix storage).2⟩ := by
    rcases Android.PairingConfirmationSession.Confirmation.cases session
      (encodeFingerprint session.expectedFingerprint.1) nowUnix creator storage with
      hclosed | hwrong | hright
    · rw [hopen] at hclosed
      cases hclosed.1
    · exact absurd rfl hwrong.2.1
    · exact hright.2.2
  simp only [Android.PairingConfirmation.log, Machine.emitted, Android.PairingConfirmation.Process.step,
    Android.PairingConfirmation.Process.act, Android.PairingConfirmation.Process.perform,
    Android.PairingConfirmation.Process.beginCall, hbegin]
  simp [Android.PairingConfirmation.Process.start, Android.PairingConfirmation.Process.later,
    Android.PairingConfirmation.Process.finish, Android.PairingConfirmation.Process.register,
    Android.PairingConfirmation.Process.take, Android.PairingConfirmation.Process.confirmSession,
    hconfirm]

/-- Any response that Android makes for an offer of a desktop with a compressed key pairs the two.
The desktop takes it in time, both sides display one fingerprint, and once both users confirm it the
desktop returns the stub, and Android stores the record, of one transcript. -/
theorem honest_pairing (hC : CratePoints C) (hsame : SameVerifiers C K J) {signer : P256Signer}
    {key : C.PublicKey} {desktopId : Id} {label : String} {selection : EncodedPublicKey}
    {nonce phoneNonce : ProtocolNonce} {s : Desktop.DesktopPairingSession}
    {a : Android.OfflineEnvelope.VerifiedPairingOffer J}
    {identity : Android.OfflineEnvelope.PhoneIdentityPublic} {signingPrivate : J.PrivateKey}
    {v : Android.OfflineEnvelope.VerifiedPairingResponse J} {Storage : Type}
    {creator : Android.PairingStateCreator Storage} {storage : Storage} {nowUnix : Android.Long}
    (hsigner : signer.Ideal C) (hkey : signer.publicKey = .ok (encodePublic C key))
    (hbegin : Desktop.DesktopPairingSession.begin C desktopId label signer selection startedAtMs
      nonce = .ok s)
    (ha : Android.OfflineEnvelope.verifyPairingOffer J (SignedPairingOffer.encode s.offer) = .ok a)
    (hcreate : Android.OfflineEnvelope.createPairingResponse J a identity signingPrivate phoneNonce =
      .ok v)
    (hreceived : InTime startedAtMs receivedMs) (hconfirmed : InTime startedAtMs confirmedMs)
    (hstored : ∀ record, (creator record nowUnix storage).1 = .stored) :
    ∃ displayed response session,
      v.encoded = SignedPairingResponse.encode response ∧
      Desktop.DesktopPairingSession.log C m s.offer startedAtMs
          [.receiveResponse v.encoded receivedMs, .confirm displayed confirmedMs] =
        [⟨.receiveResponse v.encoded receivedMs, .ok (.display ⟨label, displayed⟩)⟩,
          ⟨.confirm displayed confirmedMs, .ok (.confirmed (stubOf C s.offer response))⟩] ∧
      beginWithCreator (platformOf J) (envelopeOf J) (SignedPairingOffer.encode s.offer) v.encoded =
        .ok session ∧
      session.record = recordOf (stubOf C s.offer response) label ∧
      Android.PairingConfirmation.log (platformOf J) (envelopeOf J) storage
          [.call (.begin (SignedPairingOffer.encode s.offer) v.encoded), .resume 0,
            .call (.confirm displayed nowUnix creator), .resume 0] =
        [.began (SignedPairingOffer.encode s.offer) v.encoded (.ok 0),
          .registered 0 (.ok ⟨label, displayed⟩), .took 0,
          .confirmed 0 displayed nowUnix (.ok ⟨label, displayed⟩) (some .stored)] := by
  simp only [Desktop.DesktopPairingSession.begin, mapError_ok, bind_eq_ok, pure_eq_ok,
    Except.ok.injEq] at hbegin
  obtain ⟨_, -, offer, hsign, rfl⟩ := hbegin
  have hlabel : offer.payload.desktopLabel = label := by
    simp only [SignedPairingOffer.sign, bind_eq_ok, pure_eq_ok, Except.ok.injEq] at hsign
    obtain ⟨_, -, _, -, _, -, _, -, _, -, _, -, rfl⟩ := hsign
    rfl
  have hoffer : OfferAccepted C m (SignedPairingOffer.encode offer) offer :=
    accepted_of_sign hsigner hkey hsign
  obtain ⟨found, hfound, hreads, hencoded, hdigest⟩ :=
    (android_verifyPairingOffer_eq_ok (m := m) hC hsame).mp ha
  obtain rfl : found = offer := Except.ok.inj (hfound.decoded.symm.trans hoffer.decoded)
  obtain ⟨bytes, hverify⟩ : ∃ bytes,
      Android.OfflineEnvelope.verifyPairingResponse J bytes a = .ok v := by
    simp only [Android.OfflineEnvelope.createPairingResponse, bind_eq_ok] at hcreate
    obtain ⟨_, -, _, -, _, -, _, -, signature, -, hverify⟩ := hcreate
    exact ⟨_, hverify⟩
  obtain ⟨response, hresponse, -, hv⟩ :=
    (android_verifyPairingResponse_eq_ok (m := m) hC hsame hoffer.verified hreads hdigest).mp hverify
  have hbytes := (SignedPairingResponse.decode_eq_ok.mp hresponse.decoded).1
  rw [← hv] at hresponse hbytes
  obtain ⟨session, hsession, hrecord, hexpected, hdisplay⟩ :=
    android_begins hC hsame hoffer hresponse
  have hdesktop := desktop_confirms hresponse.decoded hresponse.verified hreceived hconfirmed
  have hphone := android_confirms hsession creator storage nowUnix
  rw [hlabel] at hdesktop hrecord hdisplay
  have hcommit : session.commit .stored =
      .ok ⟨session.display.desktopLabel, session.display.transcriptFingerprint⟩ := rfl
  rw [hexpected, hstored, hcommit, hdisplay] at hphone
  exact ⟨Desktop.hex (pairingFingerprint C found response), response, session, hbytes, hdesktop,
    hsession, hrecord, hphone⟩

/-- The desktop's signing key, on the digest of the sample offer. -/
def sampleOfferSigner : P256Signer where
  publicKey := .ok (encodeCompressed desktopSigningPoint)
  signPrehash digest :=
    if digest = number 32 0x4a08156d1ce456fc81581e3f4725c8919aa759203b24dcf52b9fb0cda89d78ea then
      .ok (sampleOffer false).signature
    else .error .keyOperation

/-- The desktop begins with the sample offer. -/
private theorem sampleOffer_begun : sampleOfferSigner.Ideal (Crates.ofTable pairingTable) ∧
    Desktop.DesktopPairingSession.begin (Crates.ofTable pairingTable) (Bytes.replicate 16 1) "laptop"
      sampleOfferSigner (encodeCompressed desktopSelectionPoint) 0 (Bytes.replicate 32 7) =
        .ok ⟨sampleOffer false, 0, .waiting⟩ := by
  have hlow : IsLowS (sampleOffer false).signature := by decide +kernel
  have hsign : SignedPairingOffer.sign (Crates.ofTable pairingTable) (sampleOffer false).payload
      sampleOfferSigner = .ok (sampleOffer false) := by
    decide +kernel
  constructor
  · intro encoded digest signature hkey hsign
    simp only [sampleOfferSigner, Except.ok.injEq] at hkey hsign
    split_ifs at hsign with hdigest
    cases hsign
    subst hkey hdigest
    exact ⟨hlow, desktopSigningPoint, ofTable_fromSec1Bytes _ _, by decide +kernel⟩
  · simp only [Desktop.DesktopPairingSession.begin, mapError_ok, bind_eq_ok, pure_eq_ok,
      Except.ok.injEq]
    exact ⟨_, rfl, _, hsign, rfl⟩

/-- A creator that stores every record. -/
def sampleCreator : Android.PairingStateCreator Unit := fun _ _ _ => (.stored, ())

/-- The sample pairing, confirmed on both sides. -/
theorem honest_pairing_sample : ∃ a v displayed,
    Android.OfflineEnvelope.verifyPairingOffer (providerOfTable pairingTable)
      (SignedPairingOffer.encode (sampleOffer false)) = .ok a ∧
    Android.OfflineEnvelope.createPairingResponse (providerOfTable pairingTable) a
      ⟨Bytes.replicate 16 2, Recipient.toString (Crates.ofTable pairingTable) identityPoint,
        encodePublic (Crates.ofTable pairingTable) phoneSigningPoint⟩ phoneSigningPoint
      (Bytes.replicate 32 8) = .ok v ∧
    Android.PairingConfirmation.log (platformOf (providerOfTable pairingTable))
        (envelopeOf (providerOfTable pairingTable)) ()
        [.call (.begin (SignedPairingOffer.encode (sampleOffer false)) v.encoded), .resume 0,
          .call (.confirm displayed ⟨1000, by decide, by decide⟩ sampleCreator), .resume 0] =
      [.began (SignedPairingOffer.encode (sampleOffer false)) v.encoded (.ok 0),
        .registered 0 (.ok ⟨"laptop", displayed⟩), .took 0,
        .confirmed 0 displayed ⟨1000, by decide, by decide⟩ (.ok ⟨"laptop", displayed⟩)
          (some .stored)] := by
  have hC := ofTable_points pairingTable
  have hsame := ofTable_sameVerifiers pairingTable
  obtain ⟨a, hreads, hencoded, hdigest⟩ :=
    android_readings (J := providerOfTable pairingTable) hC sampleOffer_accepted
  have ha := (android_verifyPairingOffer_eq_ok hC hsame).mpr
    ⟨_, sampleOffer_accepted, hreads, hencoded, hdigest⟩
  obtain ⟨v, hanswer, hv⟩ :=
    android_answers (J := providerOfTable pairingTable) hC sampleResponse_accepted
  have hcreate := (sampleResponse_created hdigest).trans
    ((android_verifyPairingResponse_eq_ok hC hsame sampleOffer_accepted.verified hreads hdigest).mpr
      ⟨_, sampleResponse_accepted, hanswer, hv⟩)
  have hkey : sampleOfferSigner.publicKey =
      .ok (encodePublic (Crates.ofTable pairingTable) desktopSigningPoint) :=
    congrArg Except.ok (encodePublic_ofTable _ _).symm
  have hreceived : InTime 0 1000 := ⟨by decide, by decide⟩
  have hstored : ∀ record, (sampleCreator record ⟨1000, by decide, by decide⟩ ()).1 = .stored :=
    fun _ => rfl
  obtain ⟨hsigner, hbegun⟩ := sampleOffer_begun
  obtain ⟨displayed, _, _, _, _, _, _, hlog⟩ := honest_pairing (m := .definite) hC hsame hsigner
    hkey hbegun ha hcreate hreceived hreceived hstored
  exact ⟨a, v, displayed, ha, hcreate, hlog⟩

end HonestRuns

section Binding

open Android.PairingConfirmationSession (beginWithCreator)

/-- The bytes of a transcript determine its messages. -/
private theorem same_transcript {offer phoneOffer : SignedPairingOffer}
    {response phoneResponse : SignedPairingResponse} {signedOffer signedResponse encoded : List Byte}
    (hoffer : OfferAccepted C m signedOffer phoneOffer)
    (hresponse : ResponseAccepted C m phoneOffer signedResponse phoneResponse)
    (hdecode : SignedPairingResponse.decode C m encoded = .ok response)
    (hverify : SignedPairingResponse.verify C response offer = .ok ())
    (hbytes : signedOffer ++ signedResponse =
      SignedPairingOffer.encode offer ++ SignedPairingResponse.encode response) :
    phoneOffer = offer ∧ phoneResponse = response := by
  obtain ⟨hverified, -⟩ := SignedPairingResponse.verify_eq_ok.mp hverify
  have hmine : MessageKind.offer.decode C m (SignedPairingOffer.encode offer) = .ok offer :=
    decode_encode_offer (SignedPairingOffer.verify_eq_ok.mp hverified).1
  have htheirs : MessageKind.offer.decode C m signedOffer = .ok phoneOffer := hoffer.decoded
  obtain ⟨hsame, hrest⟩ := MessageKind.encode_append_injective htheirs hmine hbytes
  have hread := hresponse.decoded
  rw [hrest, ← (SignedPairingResponse.decode_eq_ok.mp hdecode).1, hdecode, Except.ok.injEq] at hread
  exact ⟨hsame, hread.symm⟩

/-- Where the desktop and a session of Android confirm one fingerprint, over any calls on either
side, the session was made from the bytes of the desktop's offer and of the response the desktop
accepted, and the record it stores is that of the desktop's stub; or the two transcripts are a
collision of the hash. -/
theorem confirmed_pairing (hC : CratePoints C) (hsame : SameVerifiers C K J)
    {offer : SignedPairingOffer} {startedAtMs nowMs : U64}
    {calls : List Desktop.DesktopPairingSession.Call}
    {before after : List Desktop.DesktopPairingSession.Entry} {displayed : String}
    {stub : Desktop.PublicIdentityStub} {Storage : Type} {storage : Storage}
    {events : List (Android.PairingConfirmation.Event Storage)}
    {history later : List Android.PairingConfirmation.Action} {index : ℕ} {nowUnix : Android.Long}
    {result : Except Android.PairingConfirmationSession.Thrown Android.CommittedPairingDisplay}
    {created : Android.Creation}
    (hdesktop : Desktop.DesktopPairingSession.log C m offer startedAtMs calls =
      before ++ ⟨.confirm displayed nowMs, .ok (.confirmed stub)⟩ :: after)
    (hphone : Android.PairingConfirmation.log (platformOf J) (envelopeOf J) storage events =
      history ++ .confirmed index displayed nowUnix result (some created) :: later) :
    ∃ signedOffer signedResponse session response,
      .began signedOffer signedResponse (.ok index) ∈ history ∧
      beginWithCreator (platformOf J) (envelopeOf J) signedOffer signedResponse = .ok session ∧
      Desktop.DesktopPairingSession.Awaits C m offer startedAtMs before response stub ∧
      (signedOffer = SignedPairingOffer.encode offer ∧
          signedResponse = SignedPairingResponse.encode response ∧
          session.record = recordOf stub offer.payload.desktopLabel ∨
        signedOffer ++ signedResponse ≠
            SignedPairingOffer.encode offer ++ SignedPairingResponse.encode response ∧
          hash C fingerprint (signedOffer ++ signedResponse) = hash C fingerprint
            (SignedPairingOffer.encode offer ++ SignedPairingResponse.encode response)) := by
  obtain ⟨made, ⟨signedOffer, signedResponse, hmem, hbegin⟩, hshown, -⟩ :=
    (Android.PairingConfirmation.log_justified storage events hphone).attempt _ _ _ _ _ rfl
  obtain ⟨_, _, response, hcall, hawaits, -, hdisplayed⟩ :=
    (Desktop.DesktopPairingSession.log_justified offer startedAtMs calls hdesktop).confirmed stub rfl
  obtain ⟨rfl, -⟩ := Desktop.DesktopPairingSession.Call.confirm.inj hcall
  obtain ⟨phoneOffer, phoneResponse, hoffer, hresponse, hexpected, hrecord⟩ :=
    begin_reads (m := m) hC hsame hbegin
  obtain ⟨_, _, encoded, _, _, -, hdecode, hverify, -⟩ := hawaits.received
  have hfingerprint : pairingFingerprint C offer response =
      pairingFingerprint C phoneOffer phoneResponse := by
    rw [← hexpected]
    exact hex_eq_encodeFingerprint (hdisplayed.symm.trans hshown)
  refine ⟨signedOffer, signedResponse, _, response, hmem, hbegin, hawaits, ?_⟩
  have hofferBytes := (SignedPairingOffer.decode_eq_ok.mp hoffer.decoded).1
  have hresponseBytes := (SignedPairingResponse.decode_eq_ok.mp hresponse.decoded).1
  by_cases hbytes : signedOffer ++ signedResponse =
      SignedPairingOffer.encode offer ++ SignedPairingResponse.encode response
  · obtain ⟨rfl, rfl⟩ := same_transcript hoffer hresponse hdecode hverify hbytes
    refine .inl ⟨hofferBytes, hresponseBytes, ?_⟩
    rw [hrecord, hawaits.stub]
    rfl
  · refine .inr ⟨hbytes, ?_⟩
    rw [hofferBytes, hresponseBytes]
    exact hfingerprint.symm

/-- The sample pairing, confirmed on both sides. -/
theorem confirmed_pairing_sample : ∃ session,
    beginWithCreator (platformOf (providerOfTable pairingTable))
      (envelopeOf (providerOfTable pairingTable)) (SignedPairingOffer.encode (sampleOffer false))
      (SignedPairingResponse.encode (sampleResponse false)) = .ok session ∧
    session.record = recordOf
      (stubOf (Crates.ofTable pairingTable) (sampleOffer false) (sampleResponse false)) "laptop" := by
  have hC := ofTable_points pairingTable
  have hsame := ofTable_sameVerifiers pairingTable
  have hreceived : Desktop.DesktopPairingSession.InTime 0 1000 := ⟨by decide, by decide⟩
  have hdesktop := desktop_confirms sampleResponse_accepted.decoded sampleResponse_accepted.verified
    hreceived hreceived
  obtain ⟨session, hbegin, -, hexpected, -⟩ := android_begins (J := providerOfTable pairingTable) hC
    hsame sampleOffer_accepted sampleResponse_accepted
  have hphone := android_confirms hbegin sampleCreator () ⟨1000, by decide, by decide⟩
  have hhex (digest : ProtocolDigest) :
      Android.PairingConfirmationSession.encodeFingerprint digest.1 = Desktop.hex digest := rfl
  rw [hexpected, hhex] at hphone
  obtain ⟨signedOffer, signedResponse, made, response, hmem, hmade, hawaits, hbinds⟩ :=
    confirmed_pairing (m := .definite) hC hsame (hdesktop.trans (show _ = [_] ++ _ :: [] from rfl))
      (hphone.trans (show _ = [_, _, _] ++ _ :: [] from rfl))
  obtain ⟨rfl, rfl⟩ : signedOffer = SignedPairingOffer.encode (sampleOffer false) ∧
      signedResponse = SignedPairingResponse.encode (sampleResponse false) := by
    simpa using hmem
  rcases hbinds with ⟨-, -, hrecord⟩ | ⟨hother, -⟩
  · exact ⟨made, hmade, hrecord⟩
  · exfalso
    obtain ⟨earlier, middle, encoded, _, _, hlog, hdecode, -⟩ := hawaits.received
    cases earlier with
    | nil =>
        obtain ⟨hentry, -⟩ := List.cons.inj hlog
        obtain ⟨rfl, -⟩ := Desktop.DesktopPairingSession.Call.receiveResponse.inj
          (Desktop.DesktopPairingSession.Entry.mk.inj hentry).1
        rw [sampleResponse_accepted.decoded, Except.ok.injEq] at hdecode
        rw [hdecode] at hother
        exact hother rfl
    | cons entry earlier => simp at hlog

end Binding

end AgePluginPhone.Phone.Envelope
