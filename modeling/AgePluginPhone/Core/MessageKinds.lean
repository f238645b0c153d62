import AgePluginPhone.Core.Envelope
import AgePluginPhone.Core.TableCrates

/-!
# One byte form for each message

The four message types as one family. Every message that signing or sealing makes decodes from
its encoding, and bytes that decode are the encoding of one message of one type.
-/

namespace AgePluginPhone.Core

open Library

inductive MessageKind
  | offer
  | pairingResponse
  | request
  | response
  deriving DecidableEq

namespace MessageKind

def Payload : MessageKind → Type
  | offer => PairingOffer
  | pairingResponse => PairingResponse
  | request => UnwrapRequest
  | response => UnwrapResponse

/-- The message type in the header. -/
def code : MessageKind → U16
  | offer => offerKind
  | pairingResponse => pairingResponseKind
  | request => requestKind
  | response => responseKind

def encodePayload : (kind : MessageKind) → kind.Payload → List Byte
  | offer => encodeOffer
  | pairingResponse => encodePairingResponse
  | request => encodeRequest
  | response => encodeResponse

def encode : (kind : MessageKind) → Signed kind.Payload → List Byte
  | offer => SignedPairingOffer.encode
  | pairingResponse => SignedPairingResponse.encode
  | request => SignedUnwrapRequest.encode
  | response => SignedUnwrapResponse.encode

variable (C : Crates) (m : TextMinicbor)

def decode : (kind : MessageKind) → List Byte → Except ProtocolError (Signed kind.Payload)
  | offer => SignedPairingOffer.decode m
  | pairingResponse => SignedPairingResponse.decode C m
  | request => SignedUnwrapRequest.decode C m
  | response => SignedUnwrapResponse.decode C m

/-- The messages that the sign and seal functions can return. -/
def Produced : (kind : MessageKind) → Signed kind.Payload → Prop
  | offer => fun s => ∃ payload key, SignedPairingOffer.sign C payload key = .ok s
  | pairingResponse => fun s => ∃ payload key, SignedPairingResponse.sign C payload key = .ok s
  | request => fun s => (∃ payload key, SignedUnwrapRequest.sign C payload key = .ok s) ∨
      ∃ payload key pairing now v, createRequest C payload key pairing now = .ok v ∧ v.signed = s
  | response => fun s => ∃ request fileKey key session nonce,
      sealResponse C request fileKey key session nonce = .ok s

/-- What a decoder requires of a payload. -/
def Valid : (kind : MessageKind) → kind.Payload → Prop
  | offer => fun v => (utf8 v.desktopLabel).length ≤ 64
  | pairingResponse => fun v => validatePairingResponse C v = .ok ()
  | request => fun v => validateRequest C v = .ok ()
  | response => fun v => ∃ key, v.phoneSessionPublicKey = encodePublic C key

variable {C m}

theorem encode_eq (kind : MessageKind) (s : Signed kind.Payload) :
    kind.encode s = signed (kind.encodePayload s.payload) s.signature := by
  cases kind <;> rfl

theorem decode_eq_ok {kind : MessageKind} {b : List Byte} {s : Signed kind.Payload} :
    kind.decode C m b = .ok s ↔
      b = kind.encode s ∧ b.length ≤ maxSignedMessageBytes ∧ kind.Valid C s.payload := by
  cases kind with
  | offer => exact SignedPairingOffer.decode_eq_ok
  | pairingResponse => exact SignedPairingResponse.decode_eq_ok
  | request => exact SignedUnwrapRequest.decode_eq_ok
  | response => exact SignedUnwrapResponse.decode_eq_ok

theorem encodePayload_length_le {kind : MessageKind} {v : kind.Payload} (h : kind.Valid C v) :
    (kind.encodePayload v).length ≤ 60000 := by
  cases kind with
  | offer => exact (encodeOffer_length_le h).trans (by decide)
  | pairingResponse =>
      obtain ⟨identity, hrecipient, -⟩ := validatePairingResponse_eq_ok.mp h
      have hlength : (utf8 v.recipient).length ≤ 160 := by
        rw [hrecipient, Recipient.toString_length]
        decide
      exact (encodePairingResponse_length_le hlength).trans (by decide)
  | request =>
      obtain ⟨-, -, hstanza, hhint⟩ := validateRequest_eq_ok.mp h
      exact (encodeRequest_length_le hstanza.bounds hhint).trans (by decide)
  | response => exact (encodeResponse_length_le v).trans (by decide)

/-- A message decodes from its encoding as soon as its payload is valid. -/
theorem decode_encode {kind : MessageKind} {s : Signed kind.Payload} (h : kind.Valid C s.payload) :
    kind.decode C m (kind.encode s) = .ok s := by
  rw [decode_eq_ok]
  refine ⟨rfl, ?_, h⟩
  rw [encode_eq]
  exact signed_length_le (encodePayload_length_le h) s.signature

section Produced

theorem valid_of_signed_offer {payload : PairingOffer} {key : P256Signer}
    {s : SignedPairingOffer} (h : SignedPairingOffer.sign C payload key = .ok s) :
    (utf8 s.payload.desktopLabel).length ≤ 64 := by
  simp only [SignedPairingOffer.sign, bind_eq_ok, pure_eq_ok, Except.ok.injEq, label_eq_ok] at h
  obtain ⟨_, hlabel, _, _, _, _, _, _, _, _, signature, -, rfl⟩ := h
  exact hlabel

theorem valid_of_signed_pairingResponse {payload : PairingResponse} {key : P256Signer}
    {s : SignedPairingResponse} (h : SignedPairingResponse.sign C payload key = .ok s) :
    validatePairingResponse C s.payload = .ok () := by
  simp only [SignedPairingResponse.sign, bind_eq_ok, pure_eq_ok, Except.ok.injEq] at h
  obtain ⟨_, hvalid, _, _, _, _, signature, -, rfl⟩ := h
  exact hvalid

theorem valid_of_signed_request {payload : UnwrapRequest} {key : P256Signer}
    {s : SignedUnwrapRequest} (h : SignedUnwrapRequest.sign C payload key = .ok s) :
    validateRequest C s.payload = .ok () := by
  simp only [SignedUnwrapRequest.sign, bind_eq_ok, pure_eq_ok, Except.ok.injEq] at h
  obtain ⟨_, hvalid, signature, -, rfl⟩ := h
  exact hvalid

theorem valid_of_sealed {request : VerifiedRequest} {fileKey : Bytes 16} {key : P256Signer}
    {session : C.SecretKey} {nonce : ProtocolNonce} {s : SignedUnwrapResponse}
    (h : sealResponse C request fileKey key session nonce = .ok s) :
    s.payload.phoneSessionPublicKey = encodePublic C (C.publicKey session) := by
  simp only [sealResponse, sealShared, bind_eq_ok, pure_eq_ok, Except.ok.injEq] at h
  obtain ⟨_, -, encrypted, -, signature, -, rfl⟩ := h
  rfl

theorem valid_of_produced {kind : MessageKind} {s : Signed kind.Payload} (h : kind.Produced C s) :
    kind.Valid C s.payload := by
  cases kind with
  | offer =>
      obtain ⟨payload, key, h⟩ := h
      exact valid_of_signed_offer h
  | pairingResponse =>
      obtain ⟨payload, key, h⟩ := h
      exact valid_of_signed_pairingResponse h
  | request =>
      rcases h with ⟨payload, key, h⟩ | ⟨payload, key, pairing, now, v, h, rfl⟩
      · exact valid_of_signed_request h
      · obtain ⟨-, -, hvalid, signature, -, rfl⟩ := createRequest_eq_ok.mp h
        exact hvalid
  | response =>
      obtain ⟨request, fileKey, key, session, nonce, h⟩ := h
      exact ⟨_, valid_of_sealed h⟩

end Produced

section Kinds

/-- The message type a payload announces. -/
def announced (m : TextMinicbor) : Decode U16 := do
  let _ ← required m.array
  let _ ← required m.u16
  required m.u16

theorem announced_header {n : ℕ} (hn : n < 2 ^ 64) (kind : U16) (rest : List Byte) :
    ∃ after, announced m (header n kind ++ rest) = .ok (kind, after) := by
  have hreads : Reads (announced m) (encodeArray n ++ (encodeUnsigned protocolVersion ++
      encodeUnsigned kind)) kind := by
    apply (required_reads (m.array_encodeArray n · hn)).bind
    apply (u16_reads protocolVersion).bind
    exact u16_reads kind
  have hrun := hreads (encodeUnsigned algorithmSuite ++ rest)
  simp only [List.append_assoc] at hrun
  refine ⟨encodeUnsigned algorithmSuite ++ rest, ?_⟩
  simpa only [header, List.append_assoc] using hrun

theorem announced_payload (kind : MessageKind) (v : kind.Payload) :
    ∃ after, announced m (kind.encodePayload v) = .ok (kind.code, after) := by
  cases kind with
  | offer => exact announced_header (by decide) _ _
  | pairingResponse => exact announced_header (by decide) _ _
  | request => exact announced_header (by decide) _ _
  | response => exact announced_header (by decide) _ _

theorem code_injective : Function.Injective code := by
  intro a b h
  cases a <;> cases b <;> first | rfl | exact absurd h (by decide)

/-- Bytes that decode as one type of message do not decode as another. -/
theorem kind_eq_of_decode {kind other : MessageKind} {b : List Byte} {s : Signed kind.Payload}
    {s' : Signed other.Payload} (h : kind.decode C m b = .ok s)
    (h' : other.decode C m b = .ok s') : kind = other := by
  obtain ⟨hb, hlength, -⟩ := decode_eq_ok.mp h
  obtain ⟨hb', hlength', -⟩ := decode_eq_ok.mp h'
  rw [encode_eq] at hb hb'
  have hread := decodeSigned_signed (m := m) (hb ▸ hlength)
  have hread' := decodeSigned_signed (m := m) (hb' ▸ hlength')
  rw [← hb] at hread
  rw [← hb', hread, Except.ok.injEq, Prod.mk.injEq] at hread'
  obtain ⟨after, hannounced⟩ := announced_payload (m := m) kind s.payload
  obtain ⟨after', hannounced'⟩ := announced_payload (m := m) other s'.payload
  rw [← hread'.1, hannounced, Except.ok.injEq, Prod.mk.injEq] at hannounced'
  exact code_injective hannounced'.1

end Kinds

section Transcripts

theorem signed_append_injective {p p' : List Byte} {signature signature' : Bytes 64}
    {rest rest' : List Byte} (hp : p.length < 2 ^ 64) (hp' : p'.length < 2 ^ 64)
    (h : signed p signature ++ rest = signed p' signature' ++ rest') :
    p = p' ∧ signature = signature' ∧ rest = rest' := by
  have hread := signed_reads (m := .definite) hp signature rest
  have hread' := signed_reads (m := .definite) hp' signature' rest'
  rw [h, hread', Except.ok.injEq, Prod.mk.injEq, Prod.mk.injEq] at hread
  exact ⟨hread.1.1.symm, hread.1.2.symm, hread.2.symm⟩

/-- A message that decodes is determined by any bytes that begin with its encoding. -/
theorem encode_append_injective {kind : MessageKind} {b b' rest rest' : List Byte}
    {s s' : Signed kind.Payload} (h : kind.decode C m b = .ok s) (h' : kind.decode C m b' = .ok s')
    (hsame : b ++ rest = b' ++ rest') : s = s' ∧ rest = rest' := by
  obtain ⟨hb, -, hvalid⟩ := decode_eq_ok.mp h
  obtain ⟨hb', -, hvalid'⟩ := decode_eq_ok.mp h'
  have hlt {v : kind.Payload} (hv : kind.Valid C v) : (kind.encodePayload v).length < 2 ^ 64 :=
    (encodePayload_length_le hv).trans_lt (by decide)
  rw [hb, hb', encode_eq, encode_eq] at hsame
  obtain ⟨hpayload, hsignature, hrest⟩ := signed_append_injective (hlt hvalid) (hlt hvalid') hsame
  rw [hb, encode_eq, hpayload, hsignature, ← encode_eq, ← hb', h', Except.ok.injEq] at h
  exact ⟨h.symm, hrest⟩

end Transcripts

end MessageKind

/-- One canonical byte form for each message of each type, and digests over that form. -/
theorem canonical_messages (C : Crates) (m : TextMinicbor) :
    (∀ kind : MessageKind,
      (∀ s, kind.Produced C s → kind.decode C m (kind.encode s) = .ok s) ∧
      (∀ b s, kind.decode C m b = .ok s → kind.encode s = b ∧ b.length ≤ 65536 ∧
        ∀ other, other ≠ kind → ∃ failure, other.decode C m b = .error failure) ∧
      ∀ b b' s, kind.decode C m b = .ok s → kind.decode C m b' = .ok s → b = b') ∧
    (∀ b offer, SignedPairingOffer.decode m b = .ok offer →
      SignedPairingOffer.digest C offer = hash C offerDigest b) ∧
    (∀ b b' offer response, SignedPairingOffer.decode m b = .ok offer →
      SignedPairingResponse.decode C m b' = .ok response →
      pairingFingerprint C offer response = hash C fingerprint (b ++ b') ∧
      ∀ c c' offer' response', SignedPairingOffer.decode m c = .ok offer' →
        SignedPairingResponse.decode C m c' = .ok response' → b ++ b' = c ++ c' →
        offer = offer' ∧ response = response') ∧
    (∀ b request pairing now digest, SignedUnwrapRequest.decode C m b = .ok request →
      checkRequest C request pairing now = .ok digest → digest = hash C requestDigest b) ∧
    ∀ b response, SignedUnwrapResponse.decode C m b = .ok response →
      hash C responseSig (SignedUnwrapResponse.encode response) = hash C responseSig b := by
  have hform {kind : MessageKind} {b : List Byte} {s : Signed kind.Payload}
      (h : kind.decode C m b = .ok s) : kind.encode s = b := (MessageKind.decode_eq_ok.mp h).1.symm
  refine ⟨fun kind => ⟨?_, ?_, ?_⟩, ?_, ?_, ?_, ?_⟩
  · intro s hproduced
    exact MessageKind.decode_encode (MessageKind.valid_of_produced hproduced)
  · intro b s h
    refine ⟨hform h, (MessageKind.decode_eq_ok.mp h).2.1, ?_⟩
    intro other hother
    cases hdecode : other.decode C m b with
    | error failure => exact ⟨failure, rfl⟩
    | ok s' => exact absurd (MessageKind.kind_eq_of_decode hdecode h) hother
  · intro b b' s h h'
    rw [← hform h, ← hform h']
  · intro b offer h
    rw [(SignedPairingOffer.decode_eq_ok.mp h).1]
    rfl
  · intro b b' offer response h h'
    constructor
    · rw [(SignedPairingOffer.decode_eq_ok.mp h).1, (SignedPairingResponse.decode_eq_ok.mp h').1]
      rfl
    · intro c c' offer' response' g g' hsame
      have hfirst : MessageKind.offer.decode C m b = .ok offer := h
      have hother : MessageKind.offer.decode C m c = .ok offer' := g
      obtain ⟨hoffer, hrest⟩ := MessageKind.encode_append_injective hfirst hother hsame
      subst hrest
      rw [h', Except.ok.injEq] at g'
      exact ⟨hoffer, g'⟩
  · intro b request pairing now digest h hcheck
    rw [(SignedUnwrapRequest.decode_eq_ok.mp h).1]
    exact (checkRequest_eq_ok.mp hcheck).2.2.2.2
  · intro b response h
    rw [(SignedUnwrapResponse.decode_eq_ok.mp h).1]

section Sample

open P256

/-- The desktop's signing key in its canonical or its compact form. -/
def sampleSigningKey (compact : Bool) : EncodedPublicKey :=
  if compact then ⟨5 :: Cbor.bigEndian 32 desktopSigningPoint.1.1, by simp⟩
  else encodeCompressed desktopSigningPoint

/-- With a compact signing key the desktop selects with the same point. -/
def sampleSelectionKey (compact : Bool) : EncodedPublicKey :=
  encodeCompressed (if compact then desktopSigningPoint.1 else desktopSelectionPoint.1)

private def sampleSignature (s : ℕ) : Bytes 64 :=
  ⟨Cbor.bigEndian 32 0x8e533b6fa0bf7b4625bb30667c01fb607ef9f8b8a80fef5b300628703187b2a3 ++
    Cbor.bigEndian 32 s, by simp⟩

def sampleOffer (compact : Bool) : SignedPairingOffer where
  payload := ⟨Bytes.replicate 16 1, "laptop", sampleSigningKey compact, sampleSelectionKey compact,
    Bytes.replicate 32 7⟩
  signature := sampleSignature (if compact then
      0x52aa1b37d38b241540c4021957e521c5fc3c9e109f12b29d75697587fc50949e
    else 0x7c62140a9fc50b13d41d7fdd2d983fe727339b6afa7e4819ebdff1076e59981e)

private def sampleOfferDigest (compact : Bool) : ℕ :=
  if compact then 0x71729d9d69f389e4826b01600926b2b94cb109897c5a5e0044c364c36a820031
  else 0xf941e6f7114f73d4daf9c9fb6a400d5757d1572e1d13736c43e1d04084ef7a52

def sampleResponse (compact : Bool) : SignedPairingResponse where
  payload := ⟨Bytes.replicate 16 2, sampleRecipient, encodeCompressed phoneSigningPoint,
    number 32 (sampleOfferDigest compact), Bytes.replicate 32 8⟩
  signature := sampleSignature (if compact then
      0x034da0091693598bcf456f4e1b6cc680a6e7f5098611a42f28d5dd520fcf1272
    else 0x75380821370f1afa3c2279a63cd9cb0bb770512d2d153002dddde68da4cf3e90)

/-- The digests and signatures of the sample pairing. -/
def sampleTable (compact : Bool) : CryptoTable where
  digests := [
    (domainInput offerSig (encodeOffer (sampleOffer compact).payload), if compact then
        0x260047a8874f060779e5ade46f3ff5a92acd6655624b6512e21c1b1486c185bb
      else 0x4a08156d1ce456fc81581e3f4725c8919aa759203b24dcf52b9fb0cda89d78ea),
    (domainInput offerDigest (SignedPairingOffer.encode (sampleOffer compact)),
      sampleOfferDigest compact),
    (domainInput pairingSig (encodePairingResponse (sampleResponse compact).payload), if compact then
        0xaf93b1fedefaa017be2d33434ffea4f8aa7559e3aa8ba0d7fd3bb149c0612449
      else 0xfb3b4b29fe6bcfbf0e0491f1b9ec9fd0082a55599b5492a750f8ac1ebb8beb64)]
  signatures := [
    (desktopSigningPoint, number 32 (if compact then
        0x260047a8874f060779e5ade46f3ff5a92acd6655624b6512e21c1b1486c185bb
      else 0x4a08156d1ce456fc81581e3f4725c8919aa759203b24dcf52b9fb0cda89d78ea),
      (sampleOffer compact).signature),
    (phoneSigningPoint, number 32 (if compact then
        0xaf93b1fedefaa017be2d33434ffea4f8aa7559e3aa8ba0d7fd3bb149c0612449
      else 0xfb3b4b29fe6bcfbf0e0491f1b9ec9fd0082a55599b5492a750f8ac1ebb8beb64),
      (sampleResponse compact).signature)]
  secrets := []
  macs := []
  streams := []
  tags := []

/-- The desktop's signing key, as it signs the sample offer. -/
def sampleDesktopSigner (compact : Bool) : P256Signer where
  publicKey := .ok (sampleSigningKey compact)
  signPrehash _ := .ok (sampleOffer compact).signature

theorem canonical_messages_offer :
    SignedPairingOffer.decode .definite (SignedPairingOffer.encode (sampleOffer false)) =
        .ok (sampleOffer false) ∧
      ∀ other : MessageKind, other ≠ .offer → ∃ failure,
        other.decode (Crates.ofTable (sampleTable false)) .definite
          (SignedPairingOffer.encode (sampleOffer false)) = .error failure := by
  obtain ⟨hkinds, -⟩ := canonical_messages (Crates.ofTable (sampleTable false)) .definite
  obtain ⟨hproduced, hdecoded, -⟩ := hkinds .offer
  have hsign : SignedPairingOffer.sign (Crates.ofTable (sampleTable false))
      (sampleOffer false).payload (sampleDesktopSigner false) = .ok (sampleOffer false) := by
    decide +kernel
  have hdecode := hproduced (sampleOffer false) ⟨_, _, hsign⟩
  exact ⟨hdecode, (hdecoded _ _ hdecode).2.2⟩

end Sample

end AgePluginPhone.Core
