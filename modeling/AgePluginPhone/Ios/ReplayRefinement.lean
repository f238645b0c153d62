import AgePluginPhone.Core.ReplayReference
import AgePluginPhone.Ios.FileKeyAuthorization
import AgePluginPhone.Ios.PairingInvariant

/-!
# Refinement of the replay state on iOS

The Swift store accepts, holds and writes what the desktop's replay state does, over every history of
requests presented to one pairing, exactly when it can read back the file the pairing was created
with.
-/

namespace AgePluginPhone.Ios

open Library Cbor StrictCbor StorageM

open AgePluginPhone.Core (ReplayState UnixTime)

variable {K : CryptoKit}

def ReplayEntry.toReplay (e : ReplayEntry) : Core.ReplayEntry :=
  .request e.requestId e.nonce e.expiresAt

theorem ReplayEntry.duplicates_toReplay (a b : ReplayEntry) :
    a.toReplay.duplicates b.toReplay = false ↔ b.requestId ≠ a.requestId ∧ b.nonce ≠ a.nonce := by
  simp [toReplay, Core.ReplayEntry.duplicates]

theorem ReplayEntry.toReplay_le (a b : ReplayEntry) : a.toReplay ≤ b.toReplay ↔ a ≤ b := by
  change a.toReplay.sortKey ≤ b.toReplay.sortKey ↔ a.sortKey ≤ b.sortKey
  simp only [toReplay, Core.ReplayEntry.sortKey, sortKey, Prod.Lex.toLex_le_toLex, lt_irrefl,
    true_and, false_or, Fin.le_def]

/-- The desktop's view of a stored state. -/
def PairingState.toReplay (s : PairingState) : ReplayState :=
  ⟨⟨.phoneRequests, s.record.desktopId, s.record.identityId⟩, s.lastSeen,
    s.entries.map ReplayEntry.toReplay⟩

section Consumption

variable {s : PairingState} {request : VerifiedUnwrapRequest K}

theorem liveEntries_toReplay (s : PairingState) (now : U64) :
    s.toReplay.liveEntries now = (s.liveEntries now).map ReplayEntry.toReplay :=
  ExpiringSet.live_map fun _ _ => Iff.rfl

theorem validateTime_iff {expires : U64} (now : UnixTime) :
    ProtocolBounds.validateTime expires now.toU64 = .ok () ↔ expires.val ≤ Core.maxProtocolTime ∧
      now.toU64 ≤ expires ∧ expires.val ≤ now.toU64.val + Core.maxRequestLifetimeSecs := by
  have hnow : now.toU64.val ≤ ProtocolBounds.maximumTime := by
    have := now.2
    simp only [UnixTime.toU64, ProtocolBounds.maximumTime]
    omega
  simp only [ProtocolBounds.validateTime_eq_ok, Fin.le_def, ProtocolBounds.maximumTime,
    Core.maxProtocolTime, Core.maxRequestLifetimeSecs]
  omega

/-- The two stores accept the same request and hold the same entries after it. -/
theorem consume_toReplay (hdesktop : request.desktopId = s.record.desktopId)
    (hidentity : request.identityId = s.record.identityId) (now : UnixTime) {next : ReplayState} :
    s.toReplay.consumeRequest ⟨.phoneRequests, request.desktopId, request.identityId⟩
        request.requestId request.nonce request.expiresAtUnix now.toU64 s.capacity = .ok next ↔
      ∃ t, s.consume K request now.toU64 = .ok t ∧ t.toReplay = next := by
  have hsorted : ((s.liveEntries now.toU64 ++ [request.entry]).insertionSort (· ≤ ·)).map
      ReplayEntry.toReplay = ((s.liveEntries now.toU64 ++ [request.entry]).map
        ReplayEntry.toReplay).insertionSort (· ≤ ·) :=
    List.map_insertionSort _ _ _ _ fun a _ b _ => (ReplayEntry.toReplay_le a b).symm
  have hfresh : (∀ e ∈ (s.liveEntries now.toU64).map ReplayEntry.toReplay,
      request.entry.toReplay.duplicates e = false) ↔ ∀ e ∈ s.liveEntries now.toU64,
        e.requestId ≠ request.requestId ∧ e.nonce ≠ request.nonce := by
    simp only [List.forall_mem_map, ReplayEntry.duplicates_toReplay]
    rfl
  rw [ReplayState.consumeRequest, ReplayState.consume_eq_ok, liveEntries_toReplay]
  simp only [consume_eq_ok, validateTime_iff]
  constructor
  · intro hparts
    obtain ⟨htime, -, hclock, hnew, hroom, hnext⟩ := hparts
    refine ⟨_, ⟨hclock, htime, hfresh.mp hnew, by simpa using hroom, rfl⟩, ?_⟩
    rw [hnext, PairingState.toReplay, hsorted, List.map_append]
    rfl
  · intro hparts
    obtain ⟨t, ⟨hclock, htime, hnew, hroom, ht⟩, hnext⟩ := hparts
    subst ht hnext
    refine ⟨htime, ⟨?_, rfl⟩, hclock, hfresh.mpr hnew, by simpa using hroom, ?_⟩
    · rw [hdesktop, hidentity]
      rfl
    · rw [PairingState.toReplay, hsorted, List.map_append]
      rfl

end Consumption

section Runs

/-- A request handed to the store, and the clock reading of the call. -/
structure Presentation where
  encoded : List Byte
  now : UnixTime

variable (K)

/-- The calls of a run meet no storage fault. -/
def presentStep (files : Directory) (p : Presentation) : Option Directory :=
  some (verifyAndConsume K p.encoded p.now.toU64 files []).store

/-- Whether a call succeeds with a request of the pairing. -/
def presentAccepted (desktopId identityId : Bytes 16) (files : Directory) (p : Presentation) :
    Option Bool :=
  some (match (verifyAndConsume K p.encoded p.now.toU64 files []).value with
    | .ok request => request.desktopId = desktopId ∧ request.identityId = identityId
    | .error _ => false)

/-- The desktop's replay state, consuming the requests of its scope that the key has signed. -/
def referenceCall (key : K.PublicKey) (r : ReplayState) (p : Presentation) : Bool × ReplayState :=
  match signedRequest K p.encoded r.scope.desktopId r.scope.identityId key with
  | .ok request =>
      match r.consumeRequest ⟨.phoneRequests, request.desktopId, request.identityId⟩
          request.requestId request.nonce request.expiresAtUnix p.now.toU64 1024 with
      | .ok next => (true, next)
      | .error _ => (false, r)
  | .error _ => (false, r)

def referenceStep (key : K.PublicKey) (r : ReplayState) (p : Presentation) : Option ReplayState :=
  some (referenceCall K key r p).2

def referenceAccepted (key : K.PublicKey) (r : ReplayState) (p : Presentation) : Option Bool :=
  some (referenceCall K key r p).1

variable {K}

/-- The pairing's file holds the reference state. -/
structure Refines (record : PairingRecord) (key : K.PublicKey) (files : Directory) (r : ReplayState)
    (s : PairingState) : Prop where
  wellFormed : s.WellFormed
  roles : requireRoles K s.record = .ok ()
  sameRecord : s.record = record
  sameCapacity : s.capacity = 1024
  signing : publicKey K record.desktopSigningPublicKey = .ok key
  state : s.toReplay = r
  file : files.lookup (stateURL K record.desktopId record.identityId) = some (encode s)

variable {record : PairingRecord} {key : K.PublicKey} {files : Directory} {r : ReplayState}
  {s : PairingState}

theorem Refines.read (h : Refines record key files r s) : decode K (encode s) = .ok s :=
  h.wellFormed.read h.roles

/-- Without faults a call consumes the request or leaves every file as it was. -/
theorem verifyAndConsume_quiet (files : Directory) (encoded : List Byte) (now : U64) :
    (∃ request state next, Consumes K files encoded now request state next) ∨
      (verifyAndConsume K encoded now files []).store = files ∧
        ∀ request, (verifyAndConsume K encoded now files []).value ≠ .ok request := by
  by_cases hconsumes : ∃ request state next, Consumes K files encoded now request state next
  · exact Or.inl hconsumes
  · refine Or.inr ?_
    have hends := verifyAndConsume_ends K encoded now files files []
      rfl
    cases hvalue : (verifyAndConsume K encoded now files []).value with
    | ok request =>
        obtain ⟨state, next, hfound, -⟩ := hends.of_ok hvalue
        exact absurd ⟨request, state, next, hfound⟩ hconsumes
    | error stop =>
        refine ⟨?_, by simp⟩
        rcases hends.of_error hvalue with hstore | hfound
        · exact hstore
        · obtain ⟨request, state, next, hfound, -⟩ := hfound
          exact absurd ⟨request, state, next, hfound⟩ hconsumes

/-- A call that consumes a request of the pairing does so on the state the reference holds. -/
theorem Refines.consumes_own (h : Refines record key files r s) {encoded : List Byte} {now : U64}
    {request : VerifiedUnwrapRequest K} {state t : PairingState}
    (hconsumes : Consumes K files encoded now request state t)
    (hdesktop : request.desktopId = record.desktopId)
    (hidentity : request.identityId = record.identityId) :
    state = s ∧ signedRequest K encoded record.desktopId record.identityId key = .ok request := by
  obtain ⟨content, hlookup, hdecode⟩ := hconsumes.file
  obtain ⟨signing, hsigning, hverify⟩ := hconsumes.verified
  obtain ⟨-, hd, hi, -⟩ := verifyRequest_eq_ok hverify
  rw [← hd, ← hi, hdesktop, hidentity, h.file, Option.some.injEq] at hlookup
  rw [← hlookup, h.read] at hdecode
  obtain rfl := Except.ok.inj hdecode
  rw [h.sameRecord, h.signing] at hsigning
  obtain rfl := Except.ok.inj hsigning
  rw [h.sameRecord] at hverify
  exact ⟨rfl, signedRequest_eq_ok.mpr ⟨_, hverify⟩⟩

/-- A signed request the state consumes is consumed by a call. -/
theorem Refines.consumes_of_signed (h : Refines record key files r s) {encoded : List Byte} {now : U64}
    {request : VerifiedUnwrapRequest K} {t : PairingState}
    (hsigned : signedRequest K encoded record.desktopId record.identityId key = .ok request)
    (hconsume : s.consume K request now = .ok t) : Consumes K files encoded now request s t := by
  obtain ⟨_, hverify⟩ := signedRequest_eq_ok.mp hsigned
  have hnow := (verifyRequest_eq_ok hverify).2.2.2.2.2 _ (consume_eq_ok.mp hconsume).2.1
  have hown := h.sameRecord
  refine ⟨⟨encode s, ?_, h.read⟩, ⟨key, ?_, ?_⟩, hconsume⟩
  · rw [hown]
    exact h.file
  · rw [hown]
    exact h.signing
  · rw [hown]
    exact hnow

/-- The reference consumes what the stored state consumes. -/
theorem Refines.reference_iff (h : Refines record key files r s) {request : VerifiedUnwrapRequest K}
    (hdesktop : request.desktopId = record.desktopId)
    (hidentity : request.identityId = record.identityId) (now : UnixTime) {next : ReplayState} :
    r.consumeRequest ⟨.phoneRequests, request.desktopId, request.identityId⟩ request.requestId
        request.nonce request.expiresAtUnix now.toU64 1024 = .ok next ↔
      ∃ t, s.consume K request now.toU64 = .ok t ∧ t.toReplay = next := by
  rw [← h.state, ← h.sameCapacity]
  exact consume_toReplay (by rw [h.sameRecord, hdesktop]) (by rw [h.sameRecord, hidentity]) now

theorem Refines.consume {request : VerifiedUnwrapRequest K} {now : U64} {t : PairingState}
    (h : Refines record key files r s) (hconsume : s.consume K request now = .ok t) :
    Refines record key (files.insert (stateURL K record.desktopId record.identityId) (encode t))
      t.toReplay t := by
  obtain ⟨hrecord, hcapacity⟩ := consume_record hconsume
  refine ⟨h.wellFormed.consume hconsume, ?_, hrecord.trans h.sameRecord,
    hcapacity.trans h.sameCapacity, h.signing, rfl, AList.lookup_insert _⟩
  rw [hrecord]
  exact h.roles

theorem Refines.scope_eq (h : Refines record key files r s) :
    r.scope.desktopId = record.desktopId ∧ r.scope.identityId = record.identityId := by
  rw [← h.state, ← h.sameRecord]
  exact ⟨rfl, rfl⟩

/-- The reference refuses a call that no signed request makes it consume. -/
theorem Refines.reference_refused (h : Refines record key files r s) {p : Presentation}
    (hrefused : ∀ request t,
      signedRequest K p.encoded record.desktopId record.identityId key = .ok request →
        s.consume K request p.now.toU64 ≠ .ok t) : referenceCall K key r p = (false, r) := by
  obtain ⟨hdesktop, hidentity⟩ := h.scope_eq
  rw [referenceCall, hdesktop, hidentity]
  cases hsigned : signedRequest K p.encoded record.desktopId record.identityId key with
  | error failure => rfl
  | ok request =>
      obtain ⟨_, hverify⟩ := signedRequest_eq_ok.mp hsigned
      obtain ⟨-, hd, hi, -⟩ := verifyRequest_eq_ok hverify
      cases hconsume : r.consumeRequest ⟨.phoneRequests, request.desktopId, request.identityId⟩
          request.requestId request.nonce request.expiresAtUnix p.now.toU64 1024 with
      | error failure => simp only [hconsume]
      | ok next =>
          obtain ⟨t, ht, -⟩ := (h.reference_iff hd hi p.now).mp hconsume
          exact absurd ht (hrefused request t hsigned)

theorem present_refines (h : Refines record key files r s) (p : Presentation) :
    presentAccepted K record.desktopId record.identityId files p = referenceAccepted K key r p ∧
      ∃ files' r', presentStep K files p = some files' ∧ referenceStep K key r p = some r' ∧
        ∃ t, Refines record key files' r' t := by
  rcases verifyAndConsume_quiet (K := K) files p.encoded p.now.toU64 with hconsumes | hrefused
  · obtain ⟨request, state, t, hconsumes⟩ := hconsumes
    obtain ⟨signing, -, hverify⟩ := hconsumes.verified
    obtain ⟨-, hd, hi, -, hscope, -⟩ := verifyRequest_eq_ok hverify
    by_cases hown : request.desktopId = record.desktopId ∧ request.identityId = record.identityId
    · obtain ⟨rfl, hsigned⟩ := h.consumes_own hconsumes hown.1 hown.2
      obtain ⟨hdesktop, hidentity⟩ := h.scope_eq
      have hreference := (h.reference_iff hown.1 hown.2 p.now).mpr ⟨t, hconsumes.consumed, rfl⟩
      have hcall : referenceCall K key r p = (true, t.toReplay) := by
        rw [referenceCall, hdesktop, hidentity]
        simp only [hsigned, hreference]
      refine ⟨?_, _, _, rfl, rfl, t, ?_⟩
      · simp [presentAccepted, referenceAccepted, hconsumes.run, hcall, hown]
      · rw [hcall, hconsumes.run, h.sameRecord]
        exact h.consume hconsumes.consumed
    · have hother : ¬ (state.record.desktopId = record.desktopId ∧
          state.record.identityId = record.identityId) := by
        rw [← hd, ← hi]
        exact hown
      have hcall : referenceCall K key r p = (false, r) := by
        refine h.reference_refused fun request' t' hsigned _ => ?_
        obtain ⟨_, hverify'⟩ := signedRequest_eq_ok.mp hsigned
        have hsame := (verifyRequest_eq_ok hverify').2.2.2.2.1
        rw [hscope] at hsame
        injection hsame with hsame
        injection hsame with hsamed hsamei
        exact hother ⟨hsamed, hsamei⟩
      have hurl : stateURL K record.desktopId record.identityId ≠
          stateURL K state.record.desktopId state.record.identityId := by
        intro hurl
        obtain ⟨content, hlookup, hdecode⟩ := hconsumes.file
        rw [← hurl, h.file, Option.some.injEq] at hlookup
        rw [← hlookup, h.read] at hdecode
        obtain rfl := Except.ok.inj hdecode
        rw [h.sameRecord] at hother
        exact hother ⟨rfl, rfl⟩
      refine ⟨?_, _, _, rfl, rfl, s, ?_⟩
      · simp [presentAccepted, referenceAccepted, hconsumes.run, hcall, hown]
      · rw [hcall, hconsumes.run]
        exact { h with file := by rw [AList.lookup_insert_ne hurl, h.file] }
  · have hcall : referenceCall K key r p = (false, r) := by
      refine h.reference_refused fun request t hsigned hconsume => ?_
      have hrun := (h.consumes_of_signed hsigned hconsume).run
      exact hrefused.2 request (by rw [hrun])
    refine ⟨?_, _, _, rfl, rfl, s, ?_⟩
    · cases hvalue : (verifyAndConsume K p.encoded p.now.toU64 files []).value with
      | ok request => exact absurd hvalue (hrefused.2 request)
      | error stop => simp [presentAccepted, referenceAccepted, hvalue, hcall]
    · rw [hcall, hrefused.1]
      exact h

/-- After every run of presented requests the pairing has accepted what the replay state accepts and
its file decodes to that state; a call that throws before its `durableReplace` changes no file. -/
structure RefinesReplay (record : PairingRecord) (key : K.PublicKey) (created : U64)
    (files : Directory) : Prop where
  accepted : ∀ presented : List Presentation,
    Machine.emitted (presentStep K) (presentAccepted K record.desktopId record.identityId) files
        presented =
      Machine.emitted (referenceStep K key) (referenceAccepted K key)
        (.new ⟨.phoneRequests, record.desktopId, record.identityId⟩ created) presented
  state : ∀ presented : List Presentation, ∃ files' r content s,
    Machine.run (presentStep K) files presented = some files' ∧
      Machine.run (referenceStep K key)
        (.new ⟨.phoneRequests, record.desktopId, record.identityId⟩ created) presented = some r ∧
      files'.lookup (stateURL K record.desktopId record.identityId) = some content ∧
      decode K content = .ok s ∧ s.toReplay = r
  unchanged : ∀ (encoded : List Byte) (now : U64) (other : Directory) (faults : List Fault),
    (∀ prepared, (prepareConsumption K encoded now other faults).value ≠ .ok prepared) →
      (verifyAndConsume K encoded now other faults).store = other

theorem Refines.refinesReplay {created : U64}
    (h : Refines record key files (.new ⟨.phoneRequests, record.desktopId, record.identityId⟩ created) s) :
    RefinesReplay record key created files := by
  have hrun (presented : List Presentation) := Machine.simulation
    (R := fun files r => ∃ s, Refines record key files r s)
    (fun files r p hrefines => by
      obtain ⟨s, hs⟩ := hrefines
      exact present_refines hs p) ⟨s, h⟩ presented
  refine ⟨fun presented => (hrun presented).1, fun presented => ?_, fun _ _ _ _ => verifyAndConsume_refused⟩
  obtain ⟨-, files', r, hfiles, hr, t, ht⟩ := hrun presented
  exact ⟨files', r, encode t, t, hfiles, hr, ht.file, ht.read, ht.state⟩

end Runs

section Sample

/-- The sample CryptoKit, with the signature of the sample request besides those of the offers. -/
def sampleReplayKit : CryptoKit :=
  { sampleCryptoKit with
    isValidSignature := fun (key : SampleKey) message signature =>
      sampleCryptoKit.isValidSignature key message signature ||
        PhoneIdentityPlugin.sampleRequestKit.isValidSignature key message signature
    sha256 := PhoneIdentityPlugin.sampleRequestKit.sha256 }

def sampleReplaySigningKey : sampleReplayKit.PublicKey := SampleKey.phoneSigning

/-- The exchange of the sample keys, with the given key offered for selection. -/
def sampleExchange (selection : SampleKey) : Except Failure (VerifiedPairingOffer sampleReplayKit ×
    IdentityPublicMetadata × VerifiedPairingResponse sampleReplayKit) := do
  let offer ← verifyPairingOffer sampleReplayKit (sampleOffer selection)
  let identity ← okOr (committedMetadata sampleReplayKit (Bytes.replicate 16 2)
    SampleKey.identity sampleReplaySigningKey) .trap
  let response ← createPairingResponse sampleReplayKit offer identity sampleReplaySigningKey
    (Bytes.replicate 32 8) fun _ => sampleResponseSignature selection
  return (offer, identity, response)

private def presentedAt (n : ℕ) : Option Presentation :=
  if h : n < 9223372036854775808 then some ⟨PhoneIdentityPlugin.sampleRequest, ⟨n, h⟩⟩ else none

/-- The sample request, presented twice. -/
def samplePresented : List Presentation := [1000, 1001].filterMap presentedAt

/-- What the store and the replay state accept of the presented requests after a sample pairing, and
whether the state file can be read. -/
def sampleComparison (selection : SampleKey) : Except Failure (List Bool × List Bool × Bool) := do
  let exchange ← sampleExchange selection
  let record := pairingRecord sampleReplayKit exchange.1 exchange.2.2
  let created := create sampleReplayKit exchange.1 exchange.2.2 1000 ∅ []
  let _ ← created.value.mapError fun _ => Failure.trap
  let content ← okOr (created.store.lookup
    (stateURL sampleReplayKit record.desktopId record.identityId)) .trap
  return (Machine.emitted (presentStep sampleReplayKit)
      (presentAccepted sampleReplayKit record.desktopId record.identityId) created.store
      samplePresented,
    Machine.emitted (referenceStep sampleReplayKit exchange.1.desktopSigningPublicKey)
      (referenceAccepted sampleReplayKit exchange.1.desktopSigningPublicKey)
      (.new ⟨.phoneRequests, record.desktopId, record.identityId⟩ 1000) samplePresented,
    (decode sampleReplayKit content).isOk)

example : sampleComparison .desktopSelection = .ok ([true, false], [true, false], true) := by
  decide +kernel

end Sample

end AgePluginPhone.Ios
