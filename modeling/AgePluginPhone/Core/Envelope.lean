import AgePluginPhone.Core.MessageCodec
import AgePluginPhone.Core.ReplayGuard
import AgePluginPhone.Library.Hkdf

/-!
# The offline envelope

Signing and verification of the pairing messages, creation and verification of unwrap requests,
and the sealing and opening of responses.
-/

namespace AgePluginPhone.Core

open Library

/-- A P-256 signing key in software or hardware, by its public key and its signatures. -/
structure P256Signer where
  publicKey : Except ProtocolError EncodedPublicKey
  signPrehash : ProtocolDigest → Except ProtocolError (Bytes 64)

structure PairingRecord where
  desktopId : Id
  identityId : Id
  desktopSigningPublicKey : EncodedPublicKey
  desktopSelectionPublicKey : EncodedPublicKey
  phoneSigningPublicKey : EncodedPublicKey
  deriving DecidableEq

/-- Its fields are private to the module: only `createRequest` and `verifyRequestWithReplay` make
one. -/
structure VerifiedRequest where
  signed : SignedUnwrapRequest
  digest : ProtocolDigest
  deriving DecidableEq

def VerifiedRequest.payload (v : VerifiedRequest) : UnwrapRequest := v.signed.payload

def VerifiedRequest.encode (v : VerifiedRequest) : List Byte := SignedUnwrapRequest.encode v.signed

section Domains

def offerSig : List Byte := utf8 "age-plugin-phone/pairing-offer-signature/v2"

def pairingSig : List Byte := utf8 "age-plugin-phone/pairing-response-signature/v2"

def requestSig : List Byte := utf8 "age-plugin-phone/unwrap-request-signature/v2"

def responseSig : List Byte := utf8 "age-plugin-phone/unwrap-response-signature/v2"

def requestDigest : List Byte := utf8 "age-plugin-phone/request-digest/v2"

def offerDigest : List Byte := utf8 "age-plugin-phone/pairing-offer-digest/v2"

def fingerprint : List Byte := utf8 "age-plugin-phone/pairing-fingerprint/v2"

def sessionInfo : List Byte := utf8 "age-plugin-phone/session-response/p256/v2"

end Domains

variable (C : Crates)

section Signatures

def domainInput (domain payload : List Byte) : List Byte := domain ++ [0] ++ payload

def hash (domain payload : List Byte) : ProtocolDigest := C.sha256 (domainInput domain payload)

def sign (key : P256Signer) (domain payload : List Byte) : Except ProtocolError (Bytes 64) :=
  key.signPrehash (hash C domain payload)

def verify (key : C.PublicKey) (domain payload : List Byte) (bytes : Bytes 64) :
    Except ProtocolError Unit := do
  ensure (P256.IsLowS bytes) .invalidSignature
  ensure (C.verifyPrehash key (C.sha256 (domainInput domain payload)) bytes) .invalidSignature

end Signatures

section Pairing

def SignedPairingOffer.sign (payload : PairingOffer) (key : P256Signer) :
    Except ProtocolError SignedPairingOffer := do
  label payload.desktopLabel
  let signing ← key.publicKey
  ensure (signing = payload.desktopSigningPublicKey) .invalidPublicKey
  let _ ← publicKey C payload.desktopSelectionPublicKey
  ensure (payload.desktopSelectionPublicKey ≠ payload.desktopSigningPublicKey) .invalidPublicKey
  let signature ← Core.sign C key offerSig (encodeOffer payload)
  return ⟨payload, signature⟩

def SignedPairingOffer.verify (s : SignedPairingOffer) : Except ProtocolError Unit := do
  label s.payload.desktopLabel
  let _ ← publicKey C s.payload.desktopSelectionPublicKey
  ensure (s.payload.desktopSelectionPublicKey ≠ s.payload.desktopSigningPublicKey) .invalidPublicKey
  let key ← verifying C s.payload.desktopSigningPublicKey
  Core.verify C key offerSig (encodeOffer s.payload) s.signature

def SignedPairingOffer.digest (s : SignedPairingOffer) : ProtocolDigest :=
  hash C offerDigest (SignedPairingOffer.encode s)

def SignedPairingResponse.sign (payload : PairingResponse) (key : P256Signer) :
    Except ProtocolError SignedPairingResponse := do
  validatePairingResponse C payload
  let signing ← key.publicKey
  ensure (signing = payload.phoneSigningPublicKey) .invalidPublicKey
  let signature ← Core.sign C key pairingSig (encodePairingResponse payload)
  return ⟨payload, signature⟩

def SignedPairingResponse.verify (s : SignedPairingResponse) (offer : SignedPairingOffer) :
    Except ProtocolError Unit := do
  SignedPairingOffer.verify C offer
  validatePairingResponse C s.payload
  ensure (s.payload.offerDigest = SignedPairingOffer.digest C offer) .bindingMismatch
  let identity ← identityPublic C s.payload.recipient
  ensure (∀ key ∈ [identity, s.payload.phoneSigningPublicKey],
    key ≠ offer.payload.desktopSigningPublicKey ∧ key ≠ offer.payload.desktopSelectionPublicKey)
    .invalidPublicKey
  let key ← verifying C s.payload.phoneSigningPublicKey
  Core.verify C key pairingSig (encodePairingResponse s.payload) s.signature

def pairingFingerprint (offer : SignedPairingOffer) (response : SignedPairingResponse) :
    ProtocolDigest :=
  hash C fingerprint (SignedPairingOffer.encode offer ++ SignedPairingResponse.encode response)

end Pairing

section Requests

def SignedUnwrapRequest.sign (payload : UnwrapRequest) (key : P256Signer) :
    Except ProtocolError SignedUnwrapRequest := do
  validateRequest C payload
  let signature ← Core.sign C key requestSig (encodeRequest payload)
  return ⟨payload, signature⟩

def createRequest (payload : UnwrapRequest) (signingKey : P256Signer) (pairing : PairingRecord)
    (now : U64) : Except ProtocolError VerifiedRequest := do
  ensure (payload.desktopId = pairing.desktopId) .wrongDesktop
  ensure (payload.identityId = pairing.identityId) .wrongIdentity
  let key ← signingKey.publicKey
  ensure (key = pairing.desktopSigningPublicKey) .invalidPublicKey
  validateRequestTime payload.expiresAtUnix now
  let signed ← SignedUnwrapRequest.sign C payload signingKey
  return ⟨signed, hash C requestDigest (SignedUnwrapRequest.encode signed)⟩

/-- A replay-consumption backend over its own states. -/
structure ReplayStore (σ : Type) where
  consumeRequest : σ → (desktopId identityId requestId : Id) → ProtocolNonce →
    (expiresAtUnix nowUnix : U64) → Except ProtocolError Unit × σ
  consumeResponse : σ → (desktopId identityId : Id) → ProtocolDigest →
    (expiresAtUnix nowUnix : U64) → Except ProtocolError Unit × σ

/-- `FileReplayGuard` as a backend, with what each replacement of its file leaves behind. -/
def FileReplayGuard.replayStore (replacement : Replacement) : ReplayStore GuardWorld where
  consumeRequest w desktopId identityId requestId nonce expires now :=
    match w.guard with
    | some g => g.consumeRequest w.stored desktopId identityId requestId nonce expires now replacement
    | none => (.error .replayState, w)
  consumeResponse w desktopId identityId digest expires now :=
    match w.guard with
    | some g => g.consumeResponse w.stored desktopId identityId digest expires now replacement
    | none => (.error .replayState, w)

/-- Non-durable replay detection, without expiry or clock. -/
structure ReplayGuard where
  requests : List Id
  nonces : List ProtocolNonce
  responses : List ProtocolDigest

def ReplayGuard.replayStore : ReplayStore ReplayGuard where
  consumeRequest g _ _ requestId nonce _ _ :=
    if g.requests.any (· = requestId) || g.nonces.any (· = nonce) then (.error .replay, g)
    else (.ok (), { g with requests := requestId :: g.requests, nonces := nonce :: g.nonces })
  consumeResponse g _ _ digest _ _ :=
    if g.responses.any (· = digest) then (.error .replay, g)
    else (.ok (), { g with responses := digest :: g.responses })

/-- The checks of `verifyRequestWithReplay` before the replay consumption, with the digest. -/
def checkRequest (request : SignedUnwrapRequest) (pairing : PairingRecord) (now : U64) :
    Except ProtocolError ProtocolDigest := do
  validateRequest C request.payload
  ensure (request.payload.desktopId = pairing.desktopId) .wrongDesktop
  ensure (request.payload.identityId = pairing.identityId) .wrongIdentity
  validateRequestTime request.payload.expiresAtUnix now
  let key ← verifying C pairing.desktopSigningPublicKey
  verify C key requestSig (encodeRequest request.payload) request.signature
  return hash C requestDigest (SignedUnwrapRequest.encode request)

def verifyRequestWithReplay {σ : Type} (store : ReplayStore σ) (request : SignedUnwrapRequest)
    (pairing : PairingRecord) (now : U64) (replay : σ) :
    Except ProtocolError VerifiedRequest × σ :=
  match checkRequest C request pairing now with
  | .error failure => (.error failure, replay)
  | .ok digest =>
      let (consumed, replay) := store.consumeRequest replay pairing.desktopId pairing.identityId
        request.payload.requestId request.payload.nonce request.payload.expiresAtUnix now
      (consumed.map fun _ => ⟨request, digest⟩, replay)

end Requests

section Responses

/-- One HKDF block always suffices, so the derivation cannot fail. -/
def sessionKey (shared : Bytes 32) (digest : ProtocolDigest) (nonce : ProtocolNonce) : Bytes 32 :=
  hkdf C.hmacSha256 (digest.1 ++ nonce.1) shared sessionInfo

def zeroNonce : Bytes 12 := Bytes.replicate 12 0

/-- A byte string of the given length, as `try_into` gives it. -/
def exactBytes (n : ℕ) (bytes : List Byte) : Option (Bytes n) :=
  if h : bytes.length = n then some ⟨bytes, h⟩ else none

def sealShared (request : VerifiedRequest) (fileKey : Bytes 16) (phoneSigning : P256Signer)
    (phonePublic : C.PublicKey) (shared : Bytes 32) (nonce : ProtocolNonce) :
    Except ProtocolError SignedUnwrapResponse := do
  let payload : UnwrapResponse := ⟨request.payload.requestId, request.digest,
    request.payload.identityId, request.payload.desktopId, encodePublic C phonePublic, nonce,
    Bytes.replicate 32 0⟩
  let key := sessionKey C shared payload.requestDigest payload.nonce
  let encrypted ← okOr
    (exactBytes 32 (C.encrypt key zeroNonce (responseAad payload) fileKey)) .decryption
  let payload := { payload with encryptedFileKey := encrypted }
  let signature ← sign C phoneSigning responseSig (encodeResponse payload)
  return ⟨payload, signature⟩

/-- `seal_response_with_ephemeral`; `seal_response` draws the session key and nonce at random. -/
def sealResponse (request : VerifiedRequest) (fileKey : Bytes 16) (phoneSigning : P256Signer)
    (phoneSession : C.SecretKey) (nonce : ProtocolNonce) :
    Except ProtocolError SignedUnwrapResponse := do
  let desktop ← publicKey C request.payload.sessionPublicKey
  sealShared C request fileKey phoneSigning (C.publicKey phoneSession)
    (C.diffieHellman phoneSession desktop) nonce

/-- `open_response` up to the replay consumption. -/
def openChecked (response : SignedUnwrapResponse) (request : VerifiedRequest)
    (pairing : PairingRecord) (desktopSession : C.SecretKey) (now : U64) :
    Except ProtocolError (Bytes 16) := do
  validateRequestTime request.payload.expiresAtUnix now
  let p := response.payload
  ensure (p.requestId = request.payload.requestId ∧ p.requestDigest = request.digest ∧
    p.identityId = pairing.identityId ∧ p.desktopId = pairing.desktopId) .bindingMismatch
  let phone ← verifying C pairing.phoneSigningPublicKey
  verify C phone responseSig (encodeResponse p) response.signature
  let phoneSession ← publicKey C p.phoneSessionPublicKey
  let key := sessionKey C (C.diffieHellman desktopSession phoneSession) p.requestDigest p.nonce
  let plaintext ← okOr (C.decrypt key zeroNonce (responseAad p) p.encryptedFileKey) .decryption
  okOr (exactBytes 16 plaintext) .decryption

def openResponse {σ : Type} (store : ReplayStore σ) (response : SignedUnwrapResponse)
    (request : VerifiedRequest) (pairing : PairingRecord) (desktopSession : C.SecretKey)
    (now : U64) (replay : σ) : Except ProtocolError (Bytes 16) × σ :=
  match openChecked C response request pairing desktopSession now with
  | .error failure => (.error failure, replay)
  | .ok fileKey =>
      let (consumed, replay) := store.consumeResponse replay pairing.desktopId pairing.identityId
        (hash C responseSig (SignedUnwrapResponse.encode response)) request.payload.expiresAtUnix now
      (consumed.map fun _ => fileKey, replay)

end Responses

section Specifications

variable {C}

theorem verify_eq_ok {key : C.PublicKey} {domain payload : List Byte} {signature : Bytes 64}
    {u : Unit} : verify C key domain payload signature = .ok u ↔
      P256.IsLowS signature ∧ C.verifyPrehash key (hash C domain payload) signature = true := by
  simp only [verify, bind_eq_ok, ensure_eq_ok, exists_const, hash]

theorem verifying_eq_ok {bytes : EncodedPublicKey} {key : C.PublicKey} :
    verifying C bytes = .ok key ↔ C.fromSec1Bytes bytes = some key := okOr_eq_ok

variable (C) in
/-- Every signature the key makes is low-S and verifies under its public key. -/
def P256Signer.Ideal (signer : P256Signer) : Prop :=
  ∀ encoded digest signature, signer.publicKey = .ok encoded →
    signer.signPrehash digest = .ok signature → P256.IsLowS signature ∧
      ∃ key, C.fromSec1Bytes encoded = some key ∧ C.verifyPrehash key digest signature = true

theorem SignedPairingOffer.verify_eq_ok {offer : SignedPairingOffer} {u : Unit} :
    SignedPairingOffer.verify C offer = .ok u ↔
      (utf8 offer.payload.desktopLabel).length ≤ 64 ∧
      (∃ selection, offer.payload.desktopSelectionPublicKey = encodePublic C selection) ∧
      offer.payload.desktopSelectionPublicKey ≠ offer.payload.desktopSigningPublicKey ∧
      ∃ signing, C.fromSec1Bytes offer.payload.desktopSigningPublicKey = some signing ∧
        P256.IsLowS offer.signature ∧
        C.verifyPrehash signing (hash C offerSig (encodeOffer offer.payload)) offer.signature := by
  simp only [SignedPairingOffer.verify, bind_eq_ok, ensure_eq_ok, label_eq_ok, exists_const,
    exists_and_right, publicKey_eq_ok, verifying_eq_ok, Core.verify_eq_ok]

theorem SignedPairingResponse.verify_eq_ok {offer : SignedPairingOffer}
    {response : SignedPairingResponse} {u : Unit} :
    SignedPairingResponse.verify C response offer = .ok u ↔
      SignedPairingOffer.verify C offer = .ok () ∧
      (∃ identity, response.payload.recipient = Recipient.toString C identity ∧
        encodePublic C identity ≠ response.payload.phoneSigningPublicKey ∧
        ∀ key ∈ [encodePublic C identity, response.payload.phoneSigningPublicKey],
          key ≠ offer.payload.desktopSigningPublicKey ∧
            key ≠ offer.payload.desktopSelectionPublicKey) ∧
      response.payload.offerDigest = SignedPairingOffer.digest C offer ∧
      ∃ signing, C.fromSec1Bytes response.payload.phoneSigningPublicKey = some signing ∧
        P256.IsLowS response.signature ∧ C.verifyPrehash signing
          (hash C pairingSig (encodePairingResponse response.payload)) response.signature := by
  simp only [SignedPairingResponse.verify, bind_eq_ok, ensure_eq_ok, exists_const,
    validatePairingResponse_eq_ok, identityPublic_eq_ok, verifying_eq_ok, Core.verify_eq_ok]
  constructor
  · intro hparts
    obtain ⟨_, hoffer, ⟨identity, hrecipient, _, hown⟩, hdigest, _, ⟨other, hother, hbytes⟩, hkeys,
      hsignature⟩ := hparts
    have hsame := Recipient.toString_injective (hrecipient.symm.trans hother)
    subst hsame hbytes
    exact ⟨hoffer, ⟨identity, hrecipient, hown, hkeys⟩, hdigest, hsignature⟩
  · intro hparts
    obtain ⟨hoffer, ⟨identity, hrecipient, hown, hkeys⟩, hdigest, signing, hsigning, hverify⟩ :=
      hparts
    exact ⟨(), hoffer, ⟨identity, hrecipient, ⟨signing, hsigning⟩, hown⟩, hdigest, _,
      ⟨identity, hrecipient, rfl⟩, hkeys, signing, hsigning, hverify⟩

theorem createRequest_eq_ok {payload : UnwrapRequest} {signer : P256Signer}
    {pairing : PairingRecord} {now : U64} {v : VerifiedRequest} :
    createRequest C payload signer pairing now = .ok v ↔
      (payload.desktopId = pairing.desktopId ∧ payload.identityId = pairing.identityId ∧
        signer.publicKey = .ok pairing.desktopSigningPublicKey) ∧
      validateRequestTime payload.expiresAtUnix now = .ok () ∧
      validateRequest C payload = .ok () ∧
      ∃ signature, sign C signer requestSig (encodeRequest payload) = .ok signature ∧
        v = ⟨⟨payload, signature⟩, hash C requestDigest (SignedUnwrapRequest.encode ⟨payload, signature⟩)⟩ := by
  simp only [createRequest, SignedUnwrapRequest.sign, bind_eq_ok, ensure_eq_ok, exists_const,
    pure_eq_ok, Except.ok.injEq]
  constructor
  · intro hparts
    obtain ⟨hdesktop, hidentity, key, hkey, hsame, _, htime, request, ⟨_, hvalid, signature, hsign,
      hrequest⟩, hv⟩ := hparts
    subst hsame hrequest
    exact ⟨⟨hdesktop, hidentity, hkey⟩, htime, hvalid, signature, hsign, hv.symm⟩
  · intro hparts
    obtain ⟨⟨hdesktop, hidentity, hkey⟩, htime, hvalid, signature, hsign, hv⟩ := hparts
    exact ⟨hdesktop, hidentity, _, hkey, rfl, (), htime, _, ⟨(), hvalid, signature, hsign, rfl⟩,
      hv.symm⟩

theorem checkRequest_eq_ok {request : SignedUnwrapRequest} {pairing : PairingRecord} {now : U64}
    {digest : ProtocolDigest} :
    checkRequest C request pairing now = .ok digest ↔
      validateRequest C request.payload = .ok () ∧
      (request.payload.desktopId = pairing.desktopId ∧
        request.payload.identityId = pairing.identityId) ∧
      validateRequestTime request.payload.expiresAtUnix now = .ok () ∧
      (∃ key, C.fromSec1Bytes pairing.desktopSigningPublicKey = some key ∧
        P256.IsLowS request.signature ∧
        C.verifyPrehash key (hash C requestSig (encodeRequest request.payload)) request.signature) ∧
      digest = hash C requestDigest (SignedUnwrapRequest.encode request) := by
  simp only [checkRequest, bind_eq_ok, ensure_eq_ok, exists_const, pure_eq_ok, Except.ok.injEq,
    verifying_eq_ok, verify_eq_ok]
  constructor
  · intro hparts
    obtain ⟨_, hvalid, hdesktop, hidentity, _, htime, key, hkey, hverify, hdigest⟩ := hparts
    exact ⟨hvalid, ⟨hdesktop, hidentity⟩, htime, ⟨key, hkey, hverify⟩, hdigest.symm⟩
  · intro hparts
    obtain ⟨hvalid, ⟨hdesktop, hidentity⟩, htime, ⟨key, hkey, hverify⟩, hdigest⟩ := hparts
    exact ⟨(), hvalid, hdesktop, hidentity, (), htime, key, hkey, hverify, hdigest.symm⟩

theorem verifyRequestWithReplay_eq_ok {σ : Type} {store : ReplayStore σ}
    {request : SignedUnwrapRequest} {pairing : PairingRecord} {now : U64} {replay next : σ}
    {v : VerifiedRequest} :
    verifyRequestWithReplay C store request pairing now replay = (.ok v, next) ↔
      v.signed = request ∧ checkRequest C request pairing now = .ok v.digest ∧
      store.consumeRequest replay pairing.desktopId pairing.identityId request.payload.requestId
        request.payload.nonce request.payload.expiresAtUnix now = (.ok (), next) := by
  rw [verifyRequestWithReplay]
  cases hcheck : checkRequest C request pairing now with
  | error failure => simp
  | ok digest =>
      generalize store.consumeRequest replay pairing.desktopId pairing.identityId
        request.payload.requestId request.payload.nonce request.payload.expiresAtUnix now = result
      obtain ⟨consumed, after⟩ := result
      obtain ⟨found, foundDigest⟩ := v
      cases consumed with
      | error failure => simp [Except.map]
      | ok _ =>
          simp only [Except.map, Prod.mk.injEq, Except.ok.injEq, VerifiedRequest.mk.injEq, true_and]
          constructor
          · intro hparts
            obtain ⟨⟨hrequest, hdigest⟩, hnext⟩ := hparts
            exact ⟨hrequest.symm, hdigest, hnext⟩
          · intro hparts
            obtain ⟨hrequest, hdigest, hnext⟩ := hparts
            exact ⟨⟨hrequest.symm, hdigest⟩, hnext⟩

theorem exactBytes_eq_some {n : ℕ} {bytes : List Byte} {fixed : Bytes n} :
    exactBytes n bytes = some fixed ↔ bytes = fixed.1 := by
  rw [exactBytes]
  split_ifs with h
  · rw [Option.some.injEq, Subtype.ext_iff]
  · simp only [false_iff]
    intro heq
    exact h (heq ▸ fixed.2)

/-- The payload that answers a request. -/
def VerifiedRequest.answer (request : VerifiedRequest) (phonePublic : EncodedPublicKey)
    (nonce : ProtocolNonce) (encrypted : Bytes 32) : UnwrapResponse :=
  ⟨request.payload.requestId, request.digest, request.payload.identityId,
    request.payload.desktopId, phonePublic, nonce, encrypted⟩

theorem sealResponse_eq_ok {request : VerifiedRequest} {fileKey : Bytes 16} {signer : P256Signer}
    {session : C.SecretKey} {nonce : ProtocolNonce} {response : SignedUnwrapResponse} :
    sealResponse C request fileKey signer session nonce = .ok response ↔
      ∃ desktop encrypted, request.payload.sessionPublicKey = encodePublic C desktop ∧
        response.payload = request.answer (encodePublic C (C.publicKey session)) nonce encrypted ∧
        encrypted.1 = C.encrypt (sessionKey C (C.diffieHellman session desktop) request.digest nonce)
          zeroNonce (responseAad response.payload) fileKey ∧
        sign C signer responseSig (encodeResponse response.payload) = .ok response.signature := by
  simp only [sealResponse, sealShared, bind_eq_ok, okOr_eq_ok, exactBytes_eq_some, pure_eq_ok,
    Except.ok.injEq, publicKey_eq_ok]
  constructor
  · intro hparts
    obtain ⟨desktop, hdesktop, encrypted, hencrypted, signature, hsign, hresponse⟩ := hparts
    subst hresponse
    exact ⟨desktop, encrypted, hdesktop, rfl, hencrypted.symm, hsign⟩
  · intro hparts
    obtain ⟨desktop, encrypted, hdesktop, hpayload, hencrypted, hsign⟩ := hparts
    obtain ⟨payload, signature⟩ := response
    simp only at hpayload hencrypted hsign
    subst hpayload
    exact ⟨desktop, hdesktop, encrypted, hencrypted.symm, signature, hsign, rfl⟩

theorem openChecked_eq_ok {response : SignedUnwrapResponse} {request : VerifiedRequest}
    {pairing : PairingRecord} {session : C.SecretKey} {now : U64} {fileKey : Bytes 16} :
    openChecked C response request pairing session now = .ok fileKey ↔
      validateRequestTime request.payload.expiresAtUnix now = .ok () ∧
      (response.payload.requestId = request.payload.requestId ∧
        response.payload.requestDigest = request.digest ∧
        response.payload.identityId = pairing.identityId ∧
        response.payload.desktopId = pairing.desktopId) ∧
      (∃ phone, C.fromSec1Bytes pairing.phoneSigningPublicKey = some phone ∧
        P256.IsLowS response.signature ∧ C.verifyPrehash phone
          (hash C responseSig (encodeResponse response.payload)) response.signature) ∧
      ∃ phoneSession, response.payload.phoneSessionPublicKey = encodePublic C phoneSession ∧
        response.payload.encryptedFileKey.1 = C.encrypt
          (sessionKey C (C.diffieHellman session phoneSession) response.payload.requestDigest
            response.payload.nonce) zeroNonce (responseAad response.payload) fileKey := by
  simp only [openChecked, bind_eq_ok, ensure_eq_ok, exists_const, verifying_eq_ok, verify_eq_ok,
    okOr_eq_ok, exactBytes_eq_some, C.decrypt_eq_some]
  constructor
  · intro hparts
    obtain ⟨_, htime, hbinding, phone, hphone, hverify, phoneSession, hsession, plaintext, hsealed,
      hkey⟩ := hparts
    rw [hkey] at hsealed
    exact ⟨htime, hbinding, ⟨phone, hphone, hverify⟩, phoneSession, publicKey_eq_ok.mp hsession,
      hsealed⟩
  · intro hparts
    obtain ⟨htime, hbinding, ⟨phone, hphone, hverify⟩, phoneSession, hsession, hsealed⟩ := hparts
    exact ⟨(), htime, hbinding, phone, hphone, hverify, phoneSession,
      publicKey_eq_ok.mpr hsession, fileKey.1, hsealed, rfl⟩

theorem openResponse_eq_ok {σ : Type} {store : ReplayStore σ} {response : SignedUnwrapResponse}
    {request : VerifiedRequest} {pairing : PairingRecord} {session : C.SecretKey} {now : U64}
    {replay next : σ} {fileKey : Bytes 16} :
    openResponse C store response request pairing session now replay = (.ok fileKey, next) ↔
      openChecked C response request pairing session now = .ok fileKey ∧
      store.consumeResponse replay pairing.desktopId pairing.identityId
        (hash C responseSig (SignedUnwrapResponse.encode response)) request.payload.expiresAtUnix
        now = (.ok (), next) := by
  rw [openResponse]
  cases hcheck : openChecked C response request pairing session now with
  | error failure => simp
  | ok found =>
      generalize store.consumeResponse replay pairing.desktopId pairing.identityId
        (hash C responseSig (SignedUnwrapResponse.encode response)) request.payload.expiresAtUnix
        now = result
      obtain ⟨consumed, after⟩ := result
      cases consumed with
      | error failure => simp [Except.map]
      | ok _ => simp [Except.map]

end Specifications

end AgePluginPhone.Core
