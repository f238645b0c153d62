import AgePluginPhone.Core.ResponseSealing
import AgePluginPhone.Desktop.AgeIdentity

/-!
# One unwrap request of the desktop

`DesktopUnwrapSession`: one request with one fresh session key, closed by the first response or by
cancellation.
-/

namespace AgePluginPhone.Desktop

open Library AgePluginPhone.Core

structure UnwrapDisplay where
  requestFingerprint : String
  expiresAtUnix : U64
  deriving DecidableEq

inductive UnwrapError
  | wrongDesktopState
  | request
  | sessionClosed
  | invalidResponse
  | clock
  deriving DecidableEq

def PublicIdentityStub.pairingRecord (stub : PublicIdentityStub) : PairingRecord where
  desktopId := stub.desktopId
  identityId := stub.identityId
  desktopSigningPublicKey := stub.desktopSigningPublicKey
  desktopSelectionPublicKey := stub.desktopSelectionPublicKey
  phoneSigningPublicKey := stub.phoneSigningPublicKey

def requestExpiry (now : U64) : Except ProtocolError U64 :=
  if h : now.val + maxRequestLifetimeSecs ≤ maxProtocolTime then
    .ok ⟨now.val + maxRequestLifetimeSecs, by
      simp only [maxProtocolTime] at h
      omega⟩
  else .error .malformed

structure DesktopUnwrapSession (C : Crates) where
  request : VerifiedRequest
  desktopSession : C.SecretKey
  pairing : PairingRecord
  closed : Bool

/-- What `begin` draws at random. -/
structure SessionRandom (C : Crates) where
  desktopSession : C.SecretKey
  requestId : Id
  nonce : ProtocolNonce

namespace DesktopUnwrapSession

variable (C : Crates) (m : TextMinicbor)

def begin (stub : PublicIdentityStub) (desktop : DesktopKeyState) (stanza : TaggedStanza)
    (callerHint : Option String) (nowUnix : U64) (random : SessionRandom C) :
    Except UnwrapError (DesktopUnwrapSession C) := do
  ensure (desktop.desktopId = stub.desktopId) .wrongDesktopState
  let signing ← desktop.signer.publicKey.mapError fun _ => .wrongDesktopState
  ensure (signing = stub.desktopSigningPublicKey) .wrongDesktopState
  let selection ← desktop.agreement.publicKey.mapError fun _ => .wrongDesktopState
  ensure (selection = stub.desktopSelectionPublicKey) .wrongDesktopState
  let expires ← (requestExpiry nowUnix).mapError fun _ => .request
  let request ← (createRequest C
    { requestId := random.requestId
      identityId := stub.identityId
      desktopId := stub.desktopId
      sessionPublicKey := encodePublic C (C.publicKey random.desktopSession)
      recipientStanza := stanza
      nonce := random.nonce
      expiresAtUnix := expires
      callerHint := callerHint }
    desktop.signer stub.pairingRecord nowUnix).mapError fun _ => .request
  return ⟨request, random.desktopSession, stub.pairingRecord, false⟩

variable {C}

def signedRequest (s : DesktopUnwrapSession C) : List Byte := s.request.encode

def display (s : DesktopUnwrapSession C) : UnwrapDisplay :=
  ⟨hex s.request.digest, s.request.payload.expiresAtUnix⟩

/-- The file key of a response, the closed session and the replay state. -/
def receiveResponse {σ : Type} (store : ReplayStore σ) (s : DesktopUnwrapSession C)
    (encoded : List Byte) (replay : σ) (nowUnix : U64) :
    Except UnwrapError (Bytes 16) × DesktopUnwrapSession C × σ :=
  if s.closed then (.error .sessionClosed, s, replay)
  else
    match SignedUnwrapResponse.decode C m encoded with
    | .error _ => (.error .invalidResponse, { s with closed := true }, replay)
    | .ok response =>
        let (opened, replay) := openResponse C store response s.request s.pairing s.desktopSession
          nowUnix replay
        (opened.mapError fun _ => .invalidResponse, { s with closed := true }, replay)

def cancel (s : DesktopUnwrapSession C) : DesktopUnwrapSession C := { s with closed := true }

/-- A new session is open and its request is for the stanza and the pairing of the stub. -/
theorem begin_eq_ok {stub : PublicIdentityStub} {desktop : DesktopKeyState} {stanza : TaggedStanza}
    {callerHint : Option String} {nowUnix : U64} {random : SessionRandom C} {s : DesktopUnwrapSession C}
    (h : begin C stub desktop stanza callerHint nowUnix random = .ok s) :
    s.closed = false ∧ s.pairing = stub.pairingRecord ∧ s.request.For C s.pairing ∧
      s.request.payload.recipientStanza = stanza ∧ s.request.payload.identityId = stub.identityId ∧
      s.request.payload.desktopId = stub.desktopId := by
  simp only [begin, bind_eq_ok, mapError_ok, ensure_eq_ok, pure_eq_ok, exists_const,
    Except.ok.injEq] at h
  obtain ⟨_, -, -, -, -, -, -, expires, -, request, hcreate, rfl⟩ := h
  obtain ⟨-, -, -, signature, -, hrequest⟩ := createRequest_eq_ok.mp hcreate
  refine ⟨rfl, rfl, Or.inl ⟨_, _, _, hcreate⟩, ?_⟩
  subst hrequest
  exact ⟨rfl, rfl, rfl⟩

/-- A closed session gives no file key. -/
theorem receiveResponse_closed {σ : Type} {store : ReplayStore σ} {s : DesktopUnwrapSession C}
    (h : s.closed = true) (encoded : List Byte) (replay : σ) (nowUnix : U64) :
    receiveResponse m store s encoded replay nowUnix = (.error .sessionClosed, s, replay) := by
  rw [receiveResponse, if_pos h]

/-- A response, accepted or not, closes the session. -/
theorem receiveResponse_closes {σ : Type} (store : ReplayStore σ) (s : DesktopUnwrapSession C)
    (encoded : List Byte) (replay : σ) (nowUnix : U64) :
    (receiveResponse m store s encoded replay nowUnix).2.1.closed = true := by
  by_cases hclosed : s.closed = true
  · rw [receiveResponse_closed m hclosed]
    exact hclosed
  · rw [receiveResponse, if_neg hclosed]
    cases SignedUnwrapResponse.decode C m encoded <;> rfl

end DesktopUnwrapSession

end AgePluginPhone.Desktop
