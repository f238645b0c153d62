import AgePluginPhone.Core.Envelope

/-!
# Atomic consumption

Verification of a request and opening of a response touch the replay backend exactly once, and only
after every check of the message has passed. The calls are observed by a backend that records them.
-/

namespace AgePluginPhone.Core

open Library

/-- A consumption a backend was asked for, with its answer. -/
inductive Consumption
  | request (desktopId identityId requestId : Id) (nonce : ProtocolNonce)
      (expiresAtUnix nowUnix : U64) (result : Except ProtocolError Unit)
  | response (desktopId identityId : Id) (digest : ProtocolDigest)
      (expiresAtUnix nowUnix : U64) (result : Except ProtocolError Unit)

/-- A backend together with the record of its calls. -/
def ReplayStore.traced {σ : Type} (store : ReplayStore σ) : ReplayStore (σ × List Consumption) where
  consumeRequest s desktopId identityId requestId nonce expires now :=
    let (result, next) := store.consumeRequest s.1 desktopId identityId requestId nonce expires now
    (result, next, s.2 ++ [.request desktopId identityId requestId nonce expires now result])
  consumeResponse s desktopId identityId digest expires now :=
    let (result, next) := store.consumeResponse s.1 desktopId identityId digest expires now
    (result, next, s.2 ++ [.response desktopId identityId digest expires now result])

variable (C : Crates)

/-- Everything a request is checked for before it is consumed, and what it becomes. -/
structure RequestChecks (request : SignedUnwrapRequest) (pairing : PairingRecord) (now : U64)
    (v : VerifiedRequest) : Prop where
  sessionKey : ∃ key, request.payload.sessionPublicKey = encodePublic C key
  stanza : ConformingStanza C request.payload.recipientStanza
  hint : ∀ s ∈ request.payload.callerHint, (utf8 s).length ≤ 64
  desktopId : request.payload.desktopId = pairing.desktopId
  identityId : request.payload.identityId = pairing.identityId
  notExpired : now ≤ request.payload.expiresAtUnix
  lifetime : request.payload.expiresAtUnix.val ≤ now.val + maxRequestLifetimeSecs
  time : request.payload.expiresAtUnix.val ≤ maxProtocolTime
  signature : ∃ key, C.fromSec1Bytes pairing.desktopSigningPublicKey = some key ∧
    P256.IsLowS request.signature ∧
    C.verifyPrehash key (hash C requestSig (encodeRequest request.payload)) request.signature
  result : v = ⟨request, hash C requestDigest (SignedUnwrapRequest.encode request)⟩

/-- Everything a response is checked for before it is consumed, and the key inside it. -/
structure ResponseChecks (response : SignedUnwrapResponse) (request : VerifiedRequest)
    (pairing : PairingRecord) (desktopSession : C.SecretKey) (now : U64) (fileKey : Bytes 16) :
    Prop where
  notExpired : now ≤ request.payload.expiresAtUnix
  lifetime : request.payload.expiresAtUnix.val ≤ now.val + maxRequestLifetimeSecs
  time : request.payload.expiresAtUnix.val ≤ maxProtocolTime
  requestId : response.payload.requestId = request.payload.requestId
  requestDigest : response.payload.requestDigest = request.digest
  identityId : response.payload.identityId = pairing.identityId
  desktopId : response.payload.desktopId = pairing.desktopId
  signature : ∃ phone, C.fromSec1Bytes pairing.phoneSigningPublicKey = some phone ∧
    P256.IsLowS response.signature ∧
    C.verifyPrehash phone (hash C responseSig (encodeResponse response.payload)) response.signature
  opened : ∃ phoneSession, response.payload.phoneSessionPublicKey = encodePublic C phoneSession ∧
    C.decrypt (Core.sessionKey C (C.diffieHellman desktopSession phoneSession)
      response.payload.requestDigest response.payload.nonce) zeroNonce (responseAad response.payload)
      response.payload.encryptedFileKey = some fileKey.1

variable {C}

theorem checkRequest_eq_ok_iff {request : SignedUnwrapRequest} {pairing : PairingRecord} {now : U64}
    {digest : ProtocolDigest} : checkRequest C request pairing now = .ok digest ↔
      RequestChecks C request pairing now ⟨request, digest⟩ := by
  rw [checkRequest_eq_ok, validateRequest_eq_ok]
  constructor
  · intro hparts
    obtain ⟨⟨-, hsession, hstanza, hhint⟩, ⟨hdesktop, hidentity⟩, htimes, hsignature, hdigest⟩ :=
      hparts
    obtain ⟨htime, hlive, hlifetime⟩ := validateRequestTime_eq_ok.mp htimes
    exact ⟨hsession, hstanza, hhint, hdesktop, hidentity, hlive, hlifetime, htime, hsignature,
      by rw [hdigest]⟩
  · intro h
    refine ⟨⟨h.time, h.sessionKey, h.stanza, h.hint⟩, ⟨h.desktopId, h.identityId⟩,
      validateRequestTime_eq_ok.mpr ⟨h.time, h.notExpired, h.lifetime⟩, h.signature, ?_⟩
    exact (VerifiedRequest.mk.inj h.result).2

theorem openChecked_eq_ok_iff {response : SignedUnwrapResponse} {request : VerifiedRequest}
    {pairing : PairingRecord} {session : C.SecretKey} {now : U64} {fileKey : Bytes 16} :
    openChecked C response request pairing session now = .ok fileKey ↔
      ResponseChecks C response request pairing session now fileKey := by
  rw [openChecked_eq_ok, validateRequestTime_eq_ok]
  simp only [← C.decrypt_eq_some]
  constructor
  · intro hparts
    obtain ⟨⟨htime, hlive, hlifetime⟩, ⟨hrequest, hdigest, hidentity, hdesktop⟩, hsignature,
      hopened⟩ := hparts
    exact ⟨hlive, hlifetime, htime, hrequest, hdigest, hidentity, hdesktop, hsignature, hopened⟩
  · intro h
    exact ⟨⟨h.time, h.notExpired, h.lifetime⟩, ⟨h.requestId, h.requestDigest, h.identityId,
      h.desktopId⟩, h.signature, h.opened⟩

/-- A run over a recording backend that asks for one consumption exactly when its checks pass, and
returns a result exactly when that consumption succeeds. -/
structure ConsumesOnce {σ α : Type} (Checks : α → Prop) (replay : σ) (log : List Consumption)
    (call : Except ProtocolError Unit × σ) (entry : Except ProtocolError Unit → Consumption)
    (run : Except ProtocolError α × σ × List Consumption) : Prop where
  ok_iff : ∀ a, run.1 = .ok a ↔ Checks a ∧ call.1 = .ok ()
  consumed : (∃ a, Checks a) → run.2 = (call.2, log ++ [entry call.1])
  untouched : (¬ ∃ a, Checks a) → run.2 = (replay, log)
  refused : ∀ failure, (∃ a, Checks a) → call.1 = .error failure → run.1 = .error failure

theorem consumesOnce {σ α β : Type} {Checks : β → Prop} {replay : σ} {log : List Consumption}
    {call : Except ProtocolError Unit × σ} {entry : Except ProtocolError Unit → Consumption}
    {run : Except ProtocolError β × σ × List Consumption} (checked : Except ProtocolError α)
    (finish : α → β) (hchecks : ∀ b, Checks b ↔ ∃ a, checked = .ok a ∧ finish a = b)
    (hfail : ∀ failure, checked = .error failure → run = (.error failure, replay, log))
    (hpass : ∀ a, checked = .ok a →
      run = (call.1.map fun _ => finish a, call.2, log ++ [entry call.1])) :
    ConsumesOnce Checks replay log call entry run := by
  cases checked with
  | error failure =>
      have hnone : ∀ b, ¬ Checks b := by simp [hchecks]
      rw [hfail failure rfl]
      exact ⟨by simp [hnone], by simp [hnone], by simp, by simp [hnone]⟩
  | ok a =>
      have hall : ∀ b, Checks b ↔ finish a = b := by simp [hchecks]
      rw [hpass a rfl]
      refine ⟨fun b => ?_, by simp, by simp [hall], ?_⟩
      · cases call.1 <;> simp [Except.map, hall]
      · intro failure _ hfailure
        simp [hfailure, Except.map]

theorem verifyRequestWithReplay_consumesOnce {σ : Type} (store : ReplayStore σ)
    (request : SignedUnwrapRequest) (pairing : PairingRecord) (now : U64) (replay : σ)
    (log : List Consumption) :
    ConsumesOnce (RequestChecks C request pairing now) replay log
      (store.consumeRequest replay pairing.desktopId pairing.identityId request.payload.requestId
        request.payload.nonce request.payload.expiresAtUnix now)
      (.request pairing.desktopId pairing.identityId request.payload.requestId
        request.payload.nonce request.payload.expiresAtUnix now)
      (verifyRequestWithReplay C store.traced request pairing now (replay, log)) := by
  apply consumesOnce (checkRequest C request pairing now) fun digest => ⟨request, digest⟩
  · intro v
    constructor
    · intro hchecks
      have hv := hchecks.result
      subst hv
      exact ⟨_, checkRequest_eq_ok_iff.mpr hchecks, rfl⟩
    · intro hparts
      obtain ⟨digest, hdigest, hv⟩ := hparts
      subst hv
      exact checkRequest_eq_ok_iff.mp hdigest
  · intro failure hfailure
    rw [verifyRequestWithReplay, hfailure]
  · intro digest hdigest
    rw [verifyRequestWithReplay, hdigest]
    rfl

theorem openResponse_consumesOnce {σ : Type} (store : ReplayStore σ)
    (response : SignedUnwrapResponse) (request : VerifiedRequest) (pairing : PairingRecord)
    (session : C.SecretKey) (now : U64) (replay : σ) (log : List Consumption) :
    ConsumesOnce (ResponseChecks C response request pairing session now) replay log
      (store.consumeResponse replay pairing.desktopId pairing.identityId
        (hash C responseSig (SignedUnwrapResponse.encode response)) request.payload.expiresAtUnix now)
      (.response pairing.desktopId pairing.identityId
        (hash C responseSig (SignedUnwrapResponse.encode response)) request.payload.expiresAtUnix now)
      (openResponse C store.traced response request pairing session now (replay, log)) := by
  apply consumesOnce (openChecked C response request pairing session now) id
  · intro fileKey
    simp only [openChecked_eq_ok_iff, id_eq, exists_eq_right]
  · intro failure hfailure
    rw [openResponse, hfailure]
  · intro fileKey hfileKey
    rw [openResponse, hfileKey]
    rfl

/-- Over every backend, a verification or opening succeeds exactly when every check passed and its
one consumption, made with the pairing's identifiers and the message's own token and expiry,
succeeded. A failed check makes no call and leaves the backend as it was, a failed consumption gives
no result, and recording the calls changes nothing. -/
theorem consumption_atomic (C : Crates) {σ : Type} (store : ReplayStore σ) (replay : σ)
    (log : List Consumption) :
    (∀ request pairing now,
      ConsumesOnce (RequestChecks C request pairing now) replay log
        (store.consumeRequest replay pairing.desktopId pairing.identityId
          request.payload.requestId request.payload.nonce request.payload.expiresAtUnix now)
        (.request pairing.desktopId pairing.identityId request.payload.requestId
          request.payload.nonce request.payload.expiresAtUnix now)
        (verifyRequestWithReplay C store.traced request pairing now (replay, log)) ∧
      verifyRequestWithReplay C store request pairing now replay =
        ((verifyRequestWithReplay C store.traced request pairing now (replay, log)).1,
          (verifyRequestWithReplay C store.traced request pairing now (replay, log)).2.1)) ∧
    ∀ response request pairing session now,
      ConsumesOnce (ResponseChecks C response request pairing session now) replay log
        (store.consumeResponse replay pairing.desktopId pairing.identityId
          (hash C responseSig (SignedUnwrapResponse.encode response)) request.payload.expiresAtUnix
          now)
        (.response pairing.desktopId pairing.identityId
          (hash C responseSig (SignedUnwrapResponse.encode response)) request.payload.expiresAtUnix
          now)
        (openResponse C store.traced response request pairing session now (replay, log)) ∧
      openResponse C store response request pairing session now replay =
        ((openResponse C store.traced response request pairing session now (replay, log)).1,
          (openResponse C store.traced response request pairing session now (replay, log)).2.1) := by
  constructor
  · intro request pairing now
    refine ⟨verifyRequestWithReplay_consumesOnce store request pairing now replay log, ?_⟩
    rw [verifyRequestWithReplay, verifyRequestWithReplay]
    cases checkRequest C request pairing now <;> rfl
  · intro response request pairing session now
    refine ⟨openResponse_consumesOnce store response request pairing session now replay log, ?_⟩
    rw [openResponse, openResponse]
    cases openChecked C response request pairing session now <;> rfl

end AgePluginPhone.Core
