import AgePluginPhone.Core.RequestAcceptance

/-!
# Sealed responses open

What the phone seals for a request the desktop opens with the request's session secret, and a
response opens only for the request and pairing it was sealed for.
-/

namespace AgePluginPhone.Core

open Library

variable {C : Crates}

/-- The request was created or verified for the pairing. -/
def VerifiedRequest.For (C : Crates) (request : VerifiedRequest) (pairing : PairingRecord) : Prop :=
  (∃ payload signer now, createRequest C payload signer pairing now = .ok request) ∨
  ∃ (σ : Type) (store : ReplayStore σ) (signed : SignedUnwrapRequest) (now : U64) (replay next : σ),
    verifyRequestWithReplay C store signed pairing now replay = (.ok request, next)

theorem VerifiedRequest.For.fields {request : VerifiedRequest} {pairing : PairingRecord}
    (h : request.For C pairing) :
    request.payload.desktopId = pairing.desktopId ∧ request.payload.identityId = pairing.identityId ∧
      validateRequest C request.payload = .ok () ∧
      request.digest = hash C requestDigest request.encode := by
  rcases h with ⟨payload, signer, now, h⟩ | ⟨_, store, signed, now, replay, next, h⟩
  · obtain ⟨⟨hdesktop, hidentity, -⟩, -, hvalid, signature, -, rfl⟩ := createRequest_eq_ok.mp h
    exact ⟨hdesktop, hidentity, hvalid, rfl⟩
  · obtain ⟨rfl, hcheck, -⟩ := verifyRequestWithReplay_eq_ok.mp h
    obtain ⟨hvalid, ⟨hdesktop, hidentity⟩, -, -, hdigest⟩ := checkRequest_eq_ok.mp hcheck
    exact ⟨hdesktop, hidentity, hvalid, hdigest⟩

def PairingRecord.responseScope (pairing : PairingRecord) : ReplayScope :=
  ⟨.desktopResponses, pairing.desktopId, pairing.identityId⟩

/-- The replay entry of an opened response. -/
def openedEntry (C : Crates) (request : VerifiedRequest) (response : SignedUnwrapResponse) :
    ReplayEntry :=
  .response (hash C responseSig (SignedUnwrapResponse.encode response)) request.payload.expiresAtUnix

section Opening

variable {request : VerifiedRequest} {pairing : PairingRecord} {fileKey : Bytes 16}
  {signer : P256Signer} {phoneSession desktopSession : C.SecretKey} {nonce : ProtocolNonce}
  {response : SignedUnwrapResponse} {now : U64}

/-- Every check of `openResponse` before the replay consumption passes on a sealed response. -/
theorem openChecked_of_sealResponse (hrequest : request.For C pairing) (hsigner : signer.Ideal C)
    (hkey : signer.publicKey = .ok pairing.phoneSigningPublicKey)
    (hsession : request.payload.sessionPublicKey = encodePublic C (C.publicKey desktopSession))
    (hseal : sealResponse C request fileKey signer phoneSession nonce = .ok response)
    (htime : validateRequestTime request.payload.expiresAtUnix now = .ok ()) :
    openChecked C response request pairing desktopSession now = .ok fileKey := by
  obtain ⟨hdesktopId, hidentityId, -⟩ := hrequest.fields
  obtain ⟨desktop, encrypted, hdesktop, hpayload, hencrypted, hsign⟩ := sealResponse_eq_ok.mp hseal
  have hsame : desktop = C.publicKey desktopSession :=
    encodePublic_injective (hdesktop.symm.trans hsession)
  have hsecret : C.diffieHellman phoneSession desktop =
      C.diffieHellman desktopSession (C.publicKey phoneSession) := by
    rw [hsame, C.diffieHellman_comm]
  obtain ⟨hlow, phone, hphone, hverify⟩ := hsigner _ _ _ hkey hsign
  rw [openChecked_eq_ok]
  refine ⟨htime, ?_, ⟨phone, hphone, hlow, hverify⟩, C.publicKey phoneSession, ?_, ?_⟩
  · rw [hpayload]
    exact ⟨rfl, rfl, hidentityId, hdesktopId⟩
  · rw [hpayload]
    rfl
  · rw [← hsecret]
    have hnonce : response.payload.nonce = nonce := by rw [hpayload]; rfl
    have hdigest : response.payload.requestDigest = request.digest := by rw [hpayload]; rfl
    have hciphertext : response.payload.encryptedFileKey = encrypted := by rw [hpayload]; rfl
    rw [hnonce, hdigest, hciphertext, hencrypted]

/-- What an opened response has in common with the request and the pairing. -/
structure Bound (C : Crates) (response : SignedUnwrapResponse) (request : VerifiedRequest)
    (pairing : PairingRecord) : Prop where
  requestId : response.payload.requestId = request.payload.requestId
  requestDigest : response.payload.requestDigest = request.digest
  identityId : response.payload.identityId = pairing.identityId
  desktopId : response.payload.desktopId = pairing.desktopId
  signature : ∃ phone, C.fromSec1Bytes pairing.phoneSigningPublicKey = some phone ∧
    C.verifyPrehash phone (hash C responseSig (encodeResponse response.payload)) response.signature

theorem bound_of_openChecked
    (h : openChecked C response request pairing desktopSession now = .ok fileKey) :
    Bound C response request pairing := by
  obtain ⟨-, ⟨hrequest, hdigest, hidentity, hdesktop⟩, ⟨phone, hphone, -, hverify⟩, -⟩ :=
    openChecked_eq_ok.mp h
  exact ⟨hrequest, hdigest, hidentity, hdesktop, phone, hphone, hverify⟩

end Opening

section Stores

/-- A guard is held, has not failed and is ready for the entry. -/
def GuardWorld.Serves (w : GuardWorld) (scope : ReplayScope) (entry : ReplayEntry) (now : U64) :
    Prop :=
  ∃ g, w.guard = some g ∧ g.poisoned = false ∧ g.state.Ready scope entry now g.capacity

/-- A response that the guard does not hold. -/
def ReplayGuard.Serves (r : ReplayGuard) (_ : ReplayScope) (entry : ReplayEntry) (_ : U64) : Prop :=
  ∃ digest expires, entry = .response digest expires ∧ digest ∉ r.responses

/-- A sealed response, opened with the request's session secret within its lifetime over a store
that meets the condition, gives back the file key. -/
def RoundTripOver (C : Crates) {σ : Type} (store : ReplayStore σ)
    (Ready : σ → ReplayScope → ReplayEntry → U64 → Prop) : Prop :=
  ∀ request pairing fileKey signer phoneSession desktopSession nonce response now replay,
    request.For C pairing → signer.Ideal C →
    signer.publicKey = .ok pairing.phoneSigningPublicKey →
    request.payload.sessionPublicKey = encodePublic C (C.publicKey desktopSession) →
    sealResponse C request fileKey signer phoneSession nonce = .ok response →
    validateRequestTime request.payload.expiresAtUnix now = .ok () →
    Ready replay pairing.responseScope (openedEntry C request response) now →
    ∃ next, openResponse C store response request pairing desktopSession now replay =
      (.ok fileKey, next)

theorem roundTrip_of_consumes {σ : Type} {store : ReplayStore σ}
    {Ready : σ → ReplayScope → ReplayEntry → U64 → Prop}
    (h : ∀ desktopId identityId digest expires now replay,
      Ready replay ⟨.desktopResponses, desktopId, identityId⟩ (.response digest expires) now →
      validateRequestTime expires now = .ok () → ∃ next,
      store.consumeResponse replay desktopId identityId digest expires now = (.ok (), next)) :
    RoundTripOver C store Ready := by
  intro request pairing fileKey signer phoneSession desktopSession nonce response now replay
    hrequest hsigner hkey hsession hseal htime hready
  obtain ⟨next, hconsumed⟩ := h _ _ _ _ now replay hready htime
  refine ⟨next, openResponse_eq_ok.mpr ⟨?_, hconsumed⟩⟩
  exact openChecked_of_sealResponse hrequest hsigner hkey hsession hseal htime

theorem roundTrip_over_file :
    RoundTripOver C (FileReplayGuard.replayStore .done) GuardWorld.Serves := by
  apply roundTrip_of_consumes
  intro desktopId identityId digest expires now w hserves htime
  obtain ⟨g, hg, hlive, hready⟩ := hserves
  simp only [FileReplayGuard.replayStore, hg]
  exact ⟨_, FileReplayGuard.consumeWith_ready hlive hready rfl htime⟩

theorem roundTrip_over_memory : RoundTripOver C ReplayGuard.replayStore ReplayGuard.Serves := by
  apply roundTrip_of_consumes
  intro desktopId identityId digest expires now r hserves htime
  obtain ⟨_, _, hentry, hfresh⟩ := hserves
  cases hentry
  exact ⟨_, if_neg (by simp [hfresh])⟩

end Stores

/-- Sealed responses open over any store that is ready for them, and an opened response is bound to
the request and the pairing. -/
theorem sealed_response_round_trip (C : Crates) :
    RoundTripOver C (FileReplayGuard.replayStore .done) GuardWorld.Serves ∧
    RoundTripOver C ReplayGuard.replayStore ReplayGuard.Serves ∧
    (∀ (σ : Type) (store : ReplayStore σ) response request pairing desktopSession now replay next
      fileKey, openResponse C store response request pairing desktopSession now replay =
          (.ok fileKey, next) →
        Bound C response request pairing ∧ (request.For C pairing →
          response.payload.identityId = request.payload.identityId ∧
            response.payload.desktopId = request.payload.desktopId)) ∧
    ∀ request fileKey signer phoneSession nonce response,
      sealResponse C request fileKey signer phoneSession nonce = .ok response →
      ∀ (σ : Type) (store : ReplayStore σ) other pairing desktopSession now replay,
        other.digest ≠ request.digest → ∃ failure,
          (openResponse C store response other pairing desktopSession now replay).1 =
            .error failure := by
  have hbound {σ : Type} {store : ReplayStore σ} {response : SignedUnwrapResponse}
      {request : VerifiedRequest} {pairing : PairingRecord} {desktopSession : C.SecretKey}
      {now : U64} {replay next : σ} {fileKey : Bytes 16}
      (h : openResponse C store response request pairing desktopSession now replay =
        (.ok fileKey, next)) : Bound C response request pairing :=
    bound_of_openChecked (openResponse_eq_ok.mp h).1
  refine ⟨roundTrip_over_file, roundTrip_over_memory, ?_, ?_⟩
  · intro σ store response request pairing desktopSession now replay next fileKey h
    refine ⟨hbound h, ?_⟩
    intro hrequest
    obtain ⟨hdesktop, hidentity, -⟩ := hrequest.fields
    exact ⟨(hbound h).identityId.trans hidentity.symm, (hbound h).desktopId.trans hdesktop.symm⟩
  · intro request fileKey signer phoneSession nonce response hseal σ store other pairing
      desktopSession now replay hother
    obtain ⟨_, encrypted, -, hpayload, -⟩ := sealResponse_eq_ok.mp hseal
    cases hopen : openResponse C store response other pairing desktopSession now replay with
    | mk result next =>
        cases result with
        | error failure => exact ⟨failure, rfl⟩
        | ok opened =>
            have hdigest := (hbound hopen).requestDigest
            rw [hpayload] at hdigest
            exact absurd hdigest.symm hother

section Sample

open P256

/-- The phone's signing key, on the digest of the sample response. -/
def samplePhoneSigner : P256Signer where
  publicKey := .ok (encodeCompressed phoneSigningPoint)
  signPrehash digest :=
    if digest = number 32 0xfa802d9f5a83113a998fa3b5b15a53f9bb01a99672747bd2713d50fa22b21ce8 then
      .ok sampleSealedResponse.signature
    else .error .keyOperation

def sampleDesktopGuard (lastSeenUnix : U64) (entries : List ReplayEntry) (poisoned : Bool) :
    FileReplayGuard :=
  ⟨⟨samplePairing.responseScope, lastSeenUnix, entries⟩, 1, poisoned⟩

/-- Open the sample response over a guard. -/
def sampleOpening (g : FileReplayGuard) : Except ProtocolError (Bytes 16) :=
  (openResponse (Crates.ofTable sampleExchange) (FileReplayGuard.replayStore .done)
    sampleSealedResponse sampleVerifiedRequest samplePairing desktopSessionPoint 1000
    ⟨[], some g⟩).1

theorem samplePhoneSigner_ideal : samplePhoneSigner.Ideal (Crates.ofTable sampleExchange) := by
  intro encoded digest signature hkey hsign
  simp only [samplePhoneSigner, Except.ok.injEq] at hkey hsign
  split_ifs at hsign with hdigest
  cases hsign
  subst hkey hdigest
  exact ⟨by decide +kernel, phoneSigningPoint, ofTable_fromSec1Bytes _ _, by decide +kernel⟩

theorem sampleRequest_for :
    sampleVerifiedRequest.For (Crates.ofTable sampleExchange) samplePairing :=
  Or.inl ⟨_, _, _, sampleRequest_created⟩

theorem sampleRequest_session : sampleVerifiedRequest.payload.sessionPublicKey =
    encodePublic (Crates.ofTable sampleExchange)
      ((Crates.ofTable sampleExchange).publicKey desktopSessionPoint) :=
  (encodePublic_ofTable sampleExchange desktopSessionPoint).symm

theorem sampleResponse_sealed : sealResponse (Crates.ofTable sampleExchange)
    sampleVerifiedRequest (Bytes.replicate 16 4) samplePhoneSigner phoneSessionPoint
    (Bytes.replicate 32 9) = .ok sampleSealedResponse := by
  decide +kernel

theorem sealed_response_round_trip_sample :
    (∃ next, openResponse (Crates.ofTable sampleExchange) (FileReplayGuard.replayStore .done)
      sampleSealedResponse sampleVerifiedRequest samplePairing desktopSessionPoint 1000
      ⟨[], some (sampleDesktopGuard 900 [] false)⟩ = (.ok (Bytes.replicate 16 4), next)) ∧
    Bound (Crates.ofTable sampleExchange) sampleSealedResponse sampleVerifiedRequest samplePairing := by
  obtain ⟨hfile, -, hbound, -⟩ := sealed_response_round_trip (Crates.ofTable sampleExchange)
  obtain ⟨next, hopen⟩ := hfile _ _ _ _ _ _ _ _ 1000 ⟨[], some (sampleDesktopGuard 900 [] false)⟩
    sampleRequest_for samplePhoneSigner_ideal rfl sampleRequest_session sampleResponse_sealed
    (by decide) ⟨_, rfl, rfl, rfl, show (900 : U64) ≤ 1000 by decide, Nat.one_pos,
      List.forall_mem_nil _⟩
  exact ⟨⟨next, hopen⟩, (hbound _ _ _ _ _ _ _ _ _ _ hopen).1⟩

/-- Not to hold the response is not enough: the store's clock may be ahead, it may have no room, or
an earlier commit may have failed. -/
theorem sealed_response_refused :
    (¬ RoundTripOver (Crates.ofTable sampleExchange) (FileReplayGuard.replayStore .done)
      fun w scope entry now => ∃ g, w.guard = some g ∧ g.state.scope = scope ∧
        ∀ existing ∈ g.state.liveEntries now, entry.duplicates existing = false) ∧
    sampleOpening (sampleDesktopGuard 1050 [] false) = .error .clockRollback ∧
    sampleOpening (sampleDesktopGuard 900 [.response (Bytes.replicate 32 1) 1100] false) =
      .error .replayCapacity ∧
    sampleOpening (sampleDesktopGuard 900 [] true) = .error .replayState := by
  have hclock : sampleOpening (sampleDesktopGuard 1050 [] false) = .error .clockRollback := by
    decide +kernel
  refine ⟨?_, hclock, by decide +kernel, by decide +kernel⟩
  intro hclaim
  obtain ⟨next, hopen⟩ := hclaim _ _ _ _ _ _ _ _ 1000 ⟨[], some (sampleDesktopGuard 1050 [] false)⟩
    sampleRequest_for samplePhoneSigner_ideal rfl sampleRequest_session sampleResponse_sealed
    (by decide) ⟨_, rfl, rfl, List.forall_mem_nil _⟩
  have hopened : sampleOpening (sampleDesktopGuard 1050 [] false) = .ok (Bytes.replicate 16 4) :=
    congrArg Prod.fst hopen
  rw [hclock] at hopened
  cases hopened

end Sample

end AgePluginPhone.Core
