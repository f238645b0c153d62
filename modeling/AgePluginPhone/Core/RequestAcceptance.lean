import AgePluginPhone.Core.MessageKinds

/-!
# Created requests are accepted

A request that the desktop creates passes every check of the phone's side of the protocol, and a
replay store that is ready for it records exactly that request.
-/

namespace AgePluginPhone.Core

open Library

section Stores

/-- The state after an entry was recorded. -/
def ReplayState.recorded (s : ReplayState) (entry : ReplayEntry) (now : U64) : ReplayState :=
  ⟨s.scope, now, (s.liveEntries now ++ [entry]).insertionSort (· ≤ ·)⟩

/-- A state of the scope, not ahead of the clock, with room for the entry and nothing unexpired
that it repeats. -/
structure ReplayState.Ready (s : ReplayState) (scope : ReplayScope) (entry : ReplayEntry)
    (now : U64) (capacity : ℕ) : Prop where
  scope : s.scope = scope
  clock : s.lastSeenUnix ≤ now
  capacity : (s.liveEntries now).length < capacity
  fresh : ∀ existing ∈ s.liveEntries now, entry.duplicates existing = false

theorem ReplayState.consume_ready {s : ReplayState} {scope : ReplayScope} {entry : ReplayEntry}
    {now : U64} {capacity : ℕ} (hready : s.Ready scope entry now capacity)
    (hrole : scope.role = entry.role) (htime : validateRequestTime entry.expiresAtUnix now = .ok ()) :
    s.consume scope entry now capacity = .ok (s.recorded entry now) := by
  rw [consume_eq_ok]
  refine ⟨validateRequestTime_eq_ok.mp htime, ⟨hready.scope, ?_⟩, hready.clock, hready.fresh,
    hready.capacity, rfl⟩
  rw [hready.scope, hrole]

theorem ReplayState.recorded_perm (s : ReplayState) (entry : ReplayEntry) (now : U64) :
    (s.recorded entry now).entries.Perm (entry :: s.liveEntries now) :=
  (List.perm_insertionSort _ _).trans (List.perm_append_singleton _ _)

/-- The file guard whose next replacement succeeds, after it recorded an entry. -/
def FileReplayGuard.recorded (g : FileReplayGuard) (entry : ReplayEntry) (now : U64) : GuardWorld :=
  ⟨(g.state.recorded entry now).encode, some { g with state := g.state.recorded entry now }⟩

theorem FileReplayGuard.consumeWith_ready {g : FileReplayGuard} {stored : List Byte}
    {scope : ReplayScope} {entry : ReplayEntry} {now : U64} (hlive : g.poisoned = false)
    (hready : g.state.Ready scope entry now g.capacity) (hrole : scope.role = entry.role)
    (htime : validateRequestTime entry.expiresAtUnix now = .ok ()) :
    g.consumeWith stored (fun s => s.consume scope entry now g.capacity) .done =
      (.ok (), g.recorded entry now) := by
  simp [consumeWith, hlive, ReplayState.consume_ready hready hrole htime, commit, recorded]

end Stores

variable {C : Crates} {m : TextMinicbor}

/-- The replay entry of a request. -/
def UnwrapRequest.entry (payload : UnwrapRequest) : ReplayEntry :=
  .request payload.requestId payload.nonce payload.expiresAtUnix

def PairingRecord.requestScope (pairing : PairingRecord) : ReplayScope :=
  ⟨.phoneRequests, pairing.desktopId, pairing.identityId⟩

/-- The phone's checks accept a created request, with the digest the desktop computed. -/
theorem checkRequest_of_createRequest {payload : UnwrapRequest} {signer : P256Signer}
    {pairing : PairingRecord} {now : U64} {v : VerifiedRequest} (hsigner : signer.Ideal C)
    (h : createRequest C payload signer pairing now = .ok v) :
    v.payload = payload ∧ checkRequest C v.signed pairing now = .ok v.digest := by
  obtain ⟨⟨hdesktop, hidentity, hkey⟩, htime, hvalid, signature, hsign, rfl⟩ :=
    createRequest_eq_ok.mp h
  obtain ⟨hlow, key, hfrom, hverify⟩ := hsigner _ _ _ hkey hsign
  refine ⟨rfl, checkRequest_eq_ok.mpr ⟨hvalid, ⟨hdesktop, hidentity⟩, htime, ?_, rfl⟩⟩
  exact ⟨key, hfrom, hlow, hverify⟩

variable (C m)

/-- A created request decodes from its encoding and is verified with the same digest and payload,
over a file guard that has not failed, is ready for it and whose replacement succeeds, and over an
in-memory guard that holds neither identifier; each records exactly that request. -/
theorem created_request_accepted {payload : UnwrapRequest} {signer : P256Signer}
    {pairing : PairingRecord} {now : U64} {v : VerifiedRequest} (hsigner : signer.Ideal C)
    (h : createRequest C payload signer pairing now = .ok v) :
    SignedUnwrapRequest.decode C m v.encode = .ok v.signed ∧
    (∀ (w : GuardWorld) (g : FileReplayGuard), w.guard = some g → g.poisoned = false →
      g.state.Ready pairing.requestScope payload.entry now g.capacity →
      verifyRequestWithReplay C (FileReplayGuard.replayStore .done) v.signed pairing now w =
          (.ok v, g.recorded payload.entry now) ∧
        (g.state.recorded payload.entry now).entries.Perm
          (payload.entry :: g.state.liveEntries now)) ∧
    ∀ r : ReplayGuard, payload.requestId ∉ r.requests → payload.nonce ∉ r.nonces →
      verifyRequestWithReplay C ReplayGuard.replayStore v.signed pairing now r =
        (.ok v, { r with
          requests := payload.requestId :: r.requests
          nonces := payload.nonce :: r.nonces }) := by
  obtain ⟨hpayload, hcheck⟩ := checkRequest_of_createRequest hsigner h
  obtain ⟨hvalid, -, htime, -⟩ := checkRequest_eq_ok.mp hcheck
  have hsigned : v.signed.payload = payload := hpayload
  rw [hsigned] at htime
  refine ⟨?_, ?_, ?_⟩
  · have hkind : MessageKind.request.Valid C v.signed.payload := hvalid
    exact MessageKind.decode_encode hkind
  · intro w g hg hlive hready
    refine ⟨?_, ReplayState.recorded_perm _ _ _⟩
    rw [verifyRequestWithReplay_eq_ok, hsigned]
    refine ⟨rfl, hcheck, ?_⟩
    simp only [FileReplayGuard.replayStore, hg]
    exact FileReplayGuard.consumeWith_ready hlive hready rfl htime
  · intro r hrequest hnonce
    rw [verifyRequestWithReplay_eq_ok, hsigned]
    exact ⟨rfl, hcheck, if_neg (by simp [hrequest, hnonce])⟩

section Sample

open P256

def sampleRequest : UnwrapRequest where
  requestId := Bytes.replicate 16 3
  identityId := Bytes.replicate 16 2
  desktopId := Bytes.replicate 16 1
  sessionPublicKey := encodeCompressed desktopSessionPoint
  recipientStanza := ⟨stanzaTag, [Base64.encode (encodeCompressed ephemeralPoint)],
    List.replicate 32 5⟩
  nonce := Bytes.replicate 32 6
  expiresAtUnix := 1100
  callerHint := none

def sampleRequestSignature : Bytes 64 :=
  ⟨Cbor.bigEndian 32 0x8e533b6fa0bf7b4625bb30667c01fb607ef9f8b8a80fef5b300628703187b2a3 ++
    Cbor.bigEndian 32 0x153d80bde0bf170bb30eab3cf69a87d06534842c693db83a5481b20396dceaf6, by simp⟩

def sampleSignedRequest : SignedUnwrapRequest := ⟨sampleRequest, sampleRequestSignature⟩

def sampleVerifiedRequest : VerifiedRequest :=
  ⟨sampleSignedRequest, number 32 0xda13ac7cf9826ebf91ed00cce45d27728f92c8b6dac3b02f971b792c095fe0fd⟩

def sampleSessionKey : Bytes 32 :=
  number 32 0x43f84450e41a7c4060a11cc15e03bd1c69c966edd3514297e6067b1992d92bff

/-- The phone's answer to the sample request, with its file key of sixteen fours sealed. -/
def sampleSealedResponse : SignedUnwrapResponse where
  payload := sampleVerifiedRequest.answer (encodeCompressed phoneSessionPoint) (Bytes.replicate 32 9)
    (number 32 0x131e7aced512f23083e4e536283553ba2e1a0559e3a19a9bbb2f03aeff37df10)
  signature := ⟨Cbor.bigEndian 32 0x8e533b6fa0bf7b4625bb30667c01fb607ef9f8b8a80fef5b300628703187b2a3 ++
    Cbor.bigEndian 32 0x508b03e8fb126d7974a40e79170e095ada92a71d0f5f83d1768405b5b40fae05, by simp⟩

/-- The cryptography of the sample request and its answer. -/
def sampleExchange : CryptoTable where
  digests := [
    (domainInput requestSig (encodeRequest sampleRequest),
      0x4eab03ed99476823cf22f08849c2528bb76a66b31d5f54bb37db668c75ac78a2),
    (domainInput requestDigest (SignedUnwrapRequest.encode sampleSignedRequest),
      0xda13ac7cf9826ebf91ed00cce45d27728f92c8b6dac3b02f971b792c095fe0fd),
    (domainInput responseSig (encodeResponse sampleSealedResponse.payload),
      0xfa802d9f5a83113a998fa3b5b15a53f9bb01a99672747bd2713d50fa22b21ce8),
    (domainInput responseSig (SignedUnwrapResponse.encode sampleSealedResponse),
      0xc16d0c75dfab41a92b0a3b8a5a1e68aa690efdd0ab5d559d0ec0b51d13f9fa5e)]
  signatures := [
    (desktopSigningPoint,
      number 32 0x4eab03ed99476823cf22f08849c2528bb76a66b31d5f54bb37db668c75ac78a2,
      sampleRequestSignature),
    (phoneSigningPoint,
      number 32 0xfa802d9f5a83113a998fa3b5b15a53f9bb01a99672747bd2713d50fa22b21ce8,
      sampleSealedResponse.signature)]
  secrets := [(desktopSessionPoint, phoneSessionPoint,
    0xd58d4a589ed27d168ffa3ad7326c48ca94e8e1fe92af9700a12d389033bb291a)]
  macs := [
    (sampleVerifiedRequest.digest.1 ++ List.replicate 32 9,
      (number 32 0xd58d4a589ed27d168ffa3ad7326c48ca94e8e1fe92af9700a12d389033bb291a).1,
      0x48025efc5a1c5971be4dcb56a864064a579dbbb67be6c25c9069387ec4147c48),
    ((number 32 0x48025efc5a1c5971be4dcb56a864064a579dbbb67be6c25c9069387ec4147c48).1,
      sessionInfo ++ [1], 0x43f84450e41a7c4060a11cc15e03bd1c69c966edd3514297e6067b1992d92bff)]
  streams := [(sampleSessionKey, 0x171a7ecad116f63487e0e1322c3157be)]
  tags := [(sampleSessionKey, responseAad sampleSealedResponse.payload,
    (number 16 0x131e7aced512f23083e4e536283553ba).1, 0x2e1a0559e3a19a9bbb2f03aeff37df10)]

def samplePairing : PairingRecord where
  desktopId := Bytes.replicate 16 1
  identityId := Bytes.replicate 16 2
  desktopSigningPublicKey := encodeCompressed desktopSigningPoint
  desktopSelectionPublicKey := encodeCompressed desktopSelectionPoint
  phoneSigningPublicKey := encodeCompressed phoneSigningPoint

/-- The desktop's signing key, on the digest of the sample request. -/
def sampleRequestSigner : P256Signer where
  publicKey := .ok (encodeCompressed desktopSigningPoint)
  signPrehash digest :=
    if digest = number 32 0x4eab03ed99476823cf22f08849c2528bb76a66b31d5f54bb37db668c75ac78a2 then
      .ok sampleRequestSignature
    else .error .keyOperation

/-- A guard for the sample pairing that is ready for the sample request. -/
def sampleGuard (poisoned : Bool) : FileReplayGuard :=
  ⟨ReplayState.new samplePairing.requestScope 900, 4, poisoned⟩

theorem sampleRequestSigner_ideal :
    sampleRequestSigner.Ideal (Crates.ofTable sampleExchange) := by
  intro encoded digest signature hkey hsign
  simp only [sampleRequestSigner, Except.ok.injEq] at hkey hsign
  split_ifs at hsign with hdigest
  cases hsign
  subst hkey hdigest
  exact ⟨by decide +kernel, desktopSigningPoint, ofTable_fromSec1Bytes _ _, by decide +kernel⟩

theorem sampleRequest_created : createRequest (Crates.ofTable sampleExchange)
    sampleRequest sampleRequestSigner samplePairing 1000 = .ok sampleVerifiedRequest := by
  rw [createRequest_eq_ok, validateRequest_eq_ok]
  have hstanza := conformingStanza_ofTable sampleExchange ephemeralPoint
    (List.length_replicate : (List.replicate 32 (5 : Byte)).length = 32)
  have hsession := encodePublic_ofTable sampleExchange desktopSessionPoint
  exact ⟨⟨rfl, rfl, rfl⟩, by decide, ⟨by decide, ⟨_, hsession.symm⟩, hstanza, by decide⟩,
    sampleRequestSignature, by decide +kernel, by decide +kernel⟩

private theorem sampleGuard_ready (poisoned : Bool) : (sampleGuard poisoned).state.Ready
    samplePairing.requestScope sampleRequest.entry 1000 (sampleGuard poisoned).capacity :=
  ⟨rfl, show (900 : U64) ≤ 1000 by decide, Nat.zero_lt_succ 3, List.forall_mem_nil _⟩

theorem created_request_accepted_sample :
    SignedUnwrapRequest.decode (Crates.ofTable sampleExchange) .definite
        sampleVerifiedRequest.encode = .ok sampleSignedRequest ∧
      verifyRequestWithReplay (Crates.ofTable sampleExchange) (FileReplayGuard.replayStore .done)
          sampleSignedRequest samplePairing 1000 ⟨[], some (sampleGuard false)⟩ =
        (.ok sampleVerifiedRequest, (sampleGuard false).recorded sampleRequest.entry 1000) := by
  obtain ⟨hdecode, hfile, -⟩ := created_request_accepted (Crates.ofTable sampleExchange)
    .definite sampleRequestSigner_ideal sampleRequest_created
  exact ⟨hdecode, (hfile ⟨[], some (sampleGuard false)⟩ _ rfl rfl (sampleGuard_ready false)).1⟩

/-- A guard poisoned by an earlier failed commit refuses the request, whatever its state. -/
theorem created_request_refused_when_poisoned :
    ¬ ∀ payload signer pairing now v, signer.Ideal (Crates.ofTable sampleExchange) →
      createRequest (Crates.ofTable sampleExchange) payload signer pairing now = .ok v →
      ∀ (w : GuardWorld) (g : FileReplayGuard), w.guard = some g →
        g.state.Ready pairing.requestScope payload.entry now g.capacity →
        ∃ next, verifyRequestWithReplay (Crates.ofTable sampleExchange)
          (FileReplayGuard.replayStore .done) v.signed pairing now w = (.ok v, next) := by
  intro hclaim
  obtain ⟨next, haccepted⟩ := hclaim _ _ _ _ _ sampleRequestSigner_ideal sampleRequest_created
    ⟨[], some (sampleGuard true)⟩ _ rfl (sampleGuard_ready true)
  obtain ⟨-, -, hconsumed⟩ := verifyRequestWithReplay_eq_ok.mp haccepted
  cases congrArg Prod.fst hconsumed

end Sample

end AgePluginPhone.Core
