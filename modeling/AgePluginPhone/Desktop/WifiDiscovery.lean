import AgePluginPhone.Core.EcdsaSignature
import AgePluginPhone.Desktop.AdbReverse

/-!
# Wi-Fi discovery

The desktop asks the local network for a listener and takes the answers that arrive by its deadline.
Instants are numbers, and how long a receive waits is left to the schedule.
-/

namespace AgePluginPhone.Desktop.Wifi

open Library Cbor AgePluginPhone.Core
open Adb (IpAddr)

section Constants

def wifiUnwrapPort : ℕ := 47140

def discoveryMagic : List Byte := utf8 "APWD"

def discoveryVersion : ℕ := 1

def discoveryQuery : Byte := 1

def discoveryResponse : Byte := 2

def discoveryPairing : Byte := 1

def discoveryUnwrap : Byte := 2

def discoveryQueryBytes : ℕ := 72

def discoverySignatureBytes : ℕ := 64

def discoveryResponseBytes : ℕ := discoveryQueryBytes + discoverySignatureBytes

def discoverySignatureDomain : List Byte := utf8 "age-plugin-phone/wifi-discovery-response/v1"

/-- In milliseconds, as every instant. -/
def discoveryRetryInterval : ℕ := 200

end Constants

inductive WifiError
  | invalidEndpoint
  | unavailable
  | connectionTimeout
  | transport
  | discoveryUnavailable
  | discoveryAmbiguous
  | discovery
  deriving DecidableEq

section Responses

inductive DiscoveryPurpose
  | pairing
  | unwrap
  deriving DecidableEq

def DiscoveryPurpose.code : DiscoveryPurpose → Byte
  | .pairing => discoveryPairing
  | .unwrap => discoveryUnwrap

structure DiscoveryQuery where
  purpose : DiscoveryPurpose
  nonce : Bytes 32
  desktopId : Bytes 16
  identityId : Bytes 16

def encodeDiscovery (query : DiscoveryQuery) (kind : Byte) : List Byte :=
  discoveryMagic ++ (bigEndian 2 discoveryVersion ++ (kind :: query.purpose.code ::
    (query.nonce.1 ++ (query.desktopId.1 ++ query.identityId.1))))

/-- A public key, by the signatures it verifies for a message. -/
abbrev VerifyingKey := List Byte → Ecdsa.Signature → Bool

def signedMessage (query : DiscoveryQuery) : List Byte :=
  discoverySignatureDomain ++ [0] ++ encodeDiscovery query discoveryResponse

def validDiscoveryResponse (encoded : List Byte) (query : DiscoveryQuery)
    (verifyingKey : Option VerifyingKey) : Bool :=
  let expected := encodeDiscovery query discoveryResponse
  match query.purpose, verifyingKey with
  | .pairing, none => encoded = expected
  | .unwrap, some key =>
      if encoded.length ≠ discoveryResponseBytes ∨ encoded.take discoveryQueryBytes ≠ expected then
        false
      else
        match Ecdsa.fromSlice (encoded.drop discoveryQueryBytes) with
        | none => false
        | some signature =>
            if signature.normalizeS.isSome then false else key (signedMessage query) signature
  | _, _ => false

end Responses

section Addresses

abbrev Ipv4Addr := Bytes 4

namespace Ipv4Addr

variable (address : Ipv4Addr)

def octet (i : ℕ) : ℕ := (address.1.getD i 0).val

def isPrivate : Bool :=
  octet address 0 = 10 || (octet address 0 = 172 && 16 ≤ octet address 1 && octet address 1 ≤ 31) ||
    (octet address 0 = 192 && octet address 1 = 168)

def isLinkLocal : Bool := octet address 0 = 169 && octet address 1 = 254

def isUnspecified : Bool := address.1 = [0, 0, 0, 0]

def isLoopback : Bool := octet address 0 = 127

def isMulticast : Bool := 224 ≤ octet address 0 && octet address 0 ≤ 239

def isBroadcast : Bool := address.1 = [255, 255, 255, 255]

end Ipv4Addr

open Ipv4Addr

def privateRoute (address : Ipv4Addr) : Bool :=
  (isPrivate address || isLinkLocal address) && !isUnspecified address && !isLoopback address &&
    !isMulticast address && !isBroadcast address

structure SocketAddr where
  ip : IpAddr
  port : ℕ
  deriving DecidableEq

def validateEndpoint (endpoint : SocketAddr) : Except WifiError Unit :=
  match endpoint.ip with
  | .v6 _ => .error .invalidEndpoint
  | .v4 address =>
      if endpoint.port ≠ wifiUnwrapPort ∨ ¬ privateRoute address then .error .invalidEndpoint
      else .ok ()

end Addresses

section Loop

inductive Platform
  | unix
  | windows
  deriving DecidableEq

inductive ErrorKind
  | wouldBlock
  | timedOut
  | connectionRefused
  | connectionReset
  | other
  deriving DecidableEq

def ErrorKind.tolerated : ErrorKind → Bool
  | .other => false
  | _ => true

/-- What a socket has for a receive. -/
inductive Reception
  | datagram (source : SocketAddr) (bytes : List Byte)
  | failed (kind : ErrorKind)

/-- `recv_from`: a datagram longer than the buffer is cut on Unix and an error on Windows. -/
def recvFrom (platform : Platform) (size : ℕ) :
    Reception → Except ErrorKind (List Byte × SocketAddr)
  | .failed kind => .error kind
  | .datagram source bytes =>
      if bytes.length ≤ size then .ok (bytes, source)
      else
        match platform with
        | .unix => .ok (bytes.take size, source)
        | .windows => .error .other

/-- One turn of the loop: the clock, what a send would return, and what is received. -/
structure Turn where
  now : ℕ
  sent : Except WifiError Unit
  received : Reception

def recordDiscoveryCandidate (candidates : List SocketAddr) (endpoint : SocketAddr) :
    Except WifiError (List SocketAddr) :=
  if 1 < (candidates.insert endpoint).length then .error .discoveryAmbiguous
  else .ok (candidates.insert endpoint)

variable (platform : Platform) (query : DiscoveryQuery) (verifyingKey : Option VerifyingKey)

/-- The endpoint a datagram is taken for, unless the loop continues. -/
def candidateOf (bytes : List Byte) (source : SocketAddr) : Option SocketAddr :=
  match source.ip with
  | .v6 _ => none
  | .v4 address =>
      let endpoint : SocketAddr := ⟨.v4 address, wifiUnwrapPort⟩
      if ¬ (validateEndpoint endpoint).isOk ∨ ¬ validDiscoveryResponse bytes query verifyingKey then
        none
      else some endpoint

def conclude : List SocketAddr → Except WifiError SocketAddr
  | [] => .error .discoveryUnavailable
  | [endpoint] => .ok endpoint
  | _ => .error .discoveryAmbiguous

/-- The loop. After the turns the clock has reached the deadline. -/
def discoverTurns (deadline : ℕ) : ℕ → List SocketAddr → List Turn → Except WifiError SocketAddr
  | _, candidates, [] => conclude candidates
  | nextSend, candidates, turn :: turns =>
      if deadline ≤ turn.now then conclude candidates
      else
        match if nextSend ≤ turn.now then turn.sent else .ok () with
        | .error failure => .error failure
        | .ok _ =>
            let nextSend :=
              if nextSend ≤ turn.now then turn.now + discoveryRetryInterval else nextSend
            match recvFrom platform (discoveryResponseBytes + 1) turn.received with
            | .error kind =>
                if kind.tolerated then discoverTurns deadline nextSend candidates turns
                else .error .discovery
            | .ok received =>
                match candidateOf query verifyingKey received.1 received.2 with
                | none => discoverTurns deadline nextSend candidates turns
                | some endpoint =>
                    match recordDiscoveryCandidate candidates endpoint with
                    | .error failure => .error failure
                    | .ok candidates => discoverTurns deadline nextSend candidates turns

/-- Started at one reading of the clock, with the first send due at the next. -/
def discoverWithIo (started timeout nextSend : ℕ) (turns : List Turn) :
    Except WifiError SocketAddr :=
  discoverTurns platform query verifyingKey (started + timeout) nextSend [] turns

end Loop

section Selection

/-- A response to this query; for an unwrap with a low signature of the key. -/
def IsResponse (query : DiscoveryQuery) (verifyingKey : Option VerifyingKey) (bytes : List Byte) :
    Prop :=
  match query.purpose, verifyingKey with
  | .pairing, none => bytes = encodeDiscovery query discoveryResponse
  | .unwrap, some key => ∃ (tail : Bytes 64) (signature : Ecdsa.Signature),
      bytes = encodeDiscovery query discoveryResponse ++ tail.1 ∧
        Ecdsa.fromSlice tail.1 = some signature ∧ P256.IsLowS tail ∧
        key (signedMessage query) signature = true
  | _, _ => False

/-- The private and link-local addresses that sent a response. -/
def sources (query : DiscoveryQuery) (verifyingKey : Option VerifyingKey) (turns : List Turn) :
    Set Ipv4Addr :=
  {address | ∃ turn ∈ turns, ∃ port bytes, turn.received = .datagram ⟨.v4 address, port⟩ bytes ∧
    (Ipv4Addr.isPrivate address ∨ Ipv4Addr.isLinkLocal address) ∧
    IsResponse query verifyingKey bytes}

/-- The outcome is the one source, or says that there is none or more than one. -/
structure Selects (found : Set Ipv4Addr) (outcome : Except WifiError SocketAddr) : Prop where
  selected : ∀ endpoint, outcome = .ok endpoint ↔
    ∃ address, found = {address} ∧ endpoint = ⟨.v4 address, wifiUnwrapPort⟩
  ambiguous : outcome = .error .discoveryAmbiguous ↔ found.Nontrivial
  unavailable : outcome = .error .discoveryUnavailable ↔ found = ∅

/-- A datagram that does not fit the buffer. -/
def Turn.Oversized (turn : Turn) : Prop :=
  ∃ source bytes, turn.received = .datagram source bytes ∧ discoveryResponseBytes + 1 < bytes.length

end Selection

section Responses

variable {query : DiscoveryQuery} {verifyingKey : Option VerifyingKey} {bytes : List Byte}

theorem encodeDiscovery_length (query : DiscoveryQuery) (kind : Byte) :
    (encodeDiscovery query kind).length = discoveryQueryBytes := by
  have hmagic : discoveryMagic.length = 4 := by decide
  simp only [encodeDiscovery, List.length_append, List.length_cons, hmagic, bigEndian_length,
    query.nonce.2, query.desktopId.2, query.identityId.2, discoveryQueryBytes]

theorem isResponse_length (h : IsResponse query verifyingKey bytes) :
    bytes.length ≤ discoveryResponseBytes := by
  unfold IsResponse at h
  split at h
  · rw [h, encodeDiscovery_length]
    exact Nat.le_add_right _ _
  · obtain ⟨tail, signature, rfl, -⟩ := h
    rw [List.length_append, encodeDiscovery_length, tail.2]
    exact le_rfl
  · exact h.elim

/-- A signature that `normalize_s` leaves is low. -/
theorem normalizeS_isSome_iff {tail : Bytes 64} {signature : Ecdsa.Signature}
    (h : Ecdsa.fromSlice tail.1 = some signature) :
    signature.normalizeS.isSome = true ↔ ¬ P256.IsLowS tail := by
  rw [P256.IsLowS, (Ecdsa.fromSlice_eq_some.mp h).2, Ecdsa.Signature.normalizeS]
  split_ifs with hhigh
  · simpa using hhigh
  · simpa using hhigh

theorem validDiscoveryResponse_iff : validDiscoveryResponse bytes query verifyingKey = true ↔
    IsResponse query verifyingKey bytes := by
  unfold validDiscoveryResponse IsResponse
  split
  · simp
  · next key _ _ =>
      constructor
      · intro h
        dsimp only at h
        split_ifs at h with hshape
        have hlength : bytes.length = discoveryResponseBytes := by
          by_contra hne
          exact hshape (Or.inl hne)
        have hstart : bytes.take discoveryQueryBytes = encodeDiscovery query discoveryResponse := by
          by_contra hne
          exact hshape (Or.inr hne)
        have htail : (bytes.drop discoveryQueryBytes).length = 64 := by
          rw [List.length_drop, hlength]
          rfl
        cases hslice : Ecdsa.fromSlice (bytes.drop discoveryQueryBytes) with
        | none =>
            rw [hslice] at h
            cases h
        | some signature =>
            rw [hslice] at h
            dsimp only at h
            split_ifs at h with hhigh
            refine ⟨⟨_, htail⟩, signature, ?_, hslice, ?_, h⟩
            · rw [← hstart, List.take_append_drop]
            · by_contra hnot
              exact hhigh ((normalizeS_isSome_iff hslice).mpr hnot)
      · intro h
        obtain ⟨tail, signature, rfl, hslice, hlow, hverify⟩ := h
        have hlength := encodeDiscovery_length query discoveryResponse
        rw [if_neg, List.drop_left' hlength, hslice]
        · dsimp only
          rw [if_neg]
          · exact hverify
          · intro hhigh
            exact (normalizeS_isSome_iff hslice).mp hhigh hlow
        · rintro (hne | hne)
          · apply hne
            rw [List.length_append, hlength, tail.2]
            rfl
          · exact hne (List.take_left' hlength)
  · simp

end Responses

section Candidates

variable {platform : Platform} {query : DiscoveryQuery} {verifyingKey : Option VerifyingKey}
  {address : Ipv4Addr} {bytes : List Byte} {source endpoint : SocketAddr}

theorem octet_of_eq {octets : List Byte} (h : address.1 = octets) (i : ℕ) :
    Ipv4Addr.octet address i = (octets.getD i 0).val := by
  rw [Ipv4Addr.octet, h]

/-- The other checks of a route follow from its first octet. -/
theorem privateRoute_iff : privateRoute address = true ↔
    Ipv4Addr.isPrivate address = true ∨ Ipv4Addr.isLinkLocal address = true := by
  constructor
  · intro h
    simp only [privateRoute, Bool.and_eq_true, Bool.or_eq_true] at h
    exact h.1.1.1.1
  · intro h
    have hfirst : Ipv4Addr.octet address 0 = 10 ∨ Ipv4Addr.octet address 0 = 172 ∨
        Ipv4Addr.octet address 0 = 192 ∨ Ipv4Addr.octet address 0 = 169 := by
      simp only [Ipv4Addr.isPrivate, Ipv4Addr.isLinkLocal, Bool.or_eq_true, Bool.and_eq_true,
        decide_eq_true_eq] at h
      omega
    have hunspecified : Ipv4Addr.isUnspecified address = false := by
      rw [Ipv4Addr.isUnspecified, decide_eq_false_iff_not]
      intro heq
      have hzero : Ipv4Addr.octet address 0 = 0 := octet_of_eq heq 0
      omega
    have hbroadcast : Ipv4Addr.isBroadcast address = false := by
      rw [Ipv4Addr.isBroadcast, decide_eq_false_iff_not]
      intro heq
      have hlast : Ipv4Addr.octet address 0 = 255 := octet_of_eq heq 0
      omega
    have hloopback : Ipv4Addr.isLoopback address = false := by
      rw [Ipv4Addr.isLoopback, decide_eq_false_iff_not]
      omega
    have hmulticast : Ipv4Addr.isMulticast address = false := by
      simp only [Ipv4Addr.isMulticast, Bool.and_eq_false_iff, decide_eq_false_iff_not]
      omega
    simp [privateRoute, hunspecified, hbroadcast, hloopback, hmulticast, h]

theorem validateEndpoint_isOk : (validateEndpoint ⟨.v4 address, wifiUnwrapPort⟩).isOk = true ↔
    Ipv4Addr.isPrivate address = true ∨ Ipv4Addr.isLinkLocal address = true := by
  rw [← privateRoute_iff]
  unfold validateEndpoint
  by_cases hroute : privateRoute address = true
  · simp [hroute, Except.isOk, Except.toBool]
  · simp [hroute, Except.isOk, Except.toBool]

theorem candidateOf_eq_some : candidateOf query verifyingKey bytes source = some endpoint ↔
    ∃ address, source.ip = .v4 address ∧ endpoint = ⟨.v4 address, wifiUnwrapPort⟩ ∧
      (Ipv4Addr.isPrivate address ∨ Ipv4Addr.isLinkLocal address) ∧
      IsResponse query verifyingKey bytes := by
  unfold candidateOf
  cases hip : source.ip with
  | v6 octets => simp
  | v4 address =>
      simp only [IpAddr.v4.injEq, exists_eq_left']
      constructor
      · intro h
        split_ifs at h with hno
        rw [not_or, not_not, not_not] at hno
        exact ⟨(Option.some.inj h).symm, validateEndpoint_isOk.mp hno.1,
          validDiscoveryResponse_iff.mp hno.2⟩
      · rintro ⟨rfl, hroute, hresponse⟩
        rw [if_neg]
        rw [not_or, not_not, not_not]
        exact ⟨validateEndpoint_isOk.mpr hroute, validDiscoveryResponse_iff.mpr hresponse⟩

theorem sources_cons (turn : Turn) (turns : List Turn) :
    sources query verifyingKey (turn :: turns) =
      sources query verifyingKey [turn] ∪ sources query verifyingKey turns := by
  ext address
  simp only [sources, List.mem_cons, Set.mem_ofPred_eq, Set.mem_union, List.not_mem_nil, or_false,
    exists_eq_left, or_and_right, exists_or]

/-- What a turn that is tolerated comes to. -/
inductive Effect (platform : Platform) (query : DiscoveryQuery) (verifyingKey : Option VerifyingKey)
    (turn : Turn) : Prop
  | refused : platform = .windows → turn.Oversized →
      recvFrom platform (discoveryResponseBytes + 1) turn.received = .error .other → Effect ..
  | tolerated {kind : ErrorKind} : ¬ turn.Oversized →
      recvFrom platform (discoveryResponseBytes + 1) turn.received = .error kind →
      kind.tolerated = true → sources query verifyingKey [turn] = ∅ → Effect ..
  | passed {received : List Byte × SocketAddr} : (turn.Oversized → platform = .unix) →
      recvFrom platform (discoveryResponseBytes + 1) turn.received = .ok received →
      candidateOf query verifyingKey received.1 received.2 = none →
      sources query verifyingKey [turn] = ∅ → Effect ..
  | candidate {received : List Byte × SocketAddr} {address : Ipv4Addr} : ¬ turn.Oversized →
      recvFrom platform (discoveryResponseBytes + 1) turn.received = .ok received →
      candidateOf query verifyingKey received.1 received.2 = some ⟨.v4 address, wifiUnwrapPort⟩ →
      sources query verifyingKey [turn] = {address} → Effect ..

theorem mem_sources_singleton {turn : Turn} : address ∈ sources query verifyingKey [turn] ↔
    ∃ port bytes, turn.received = .datagram ⟨.v4 address, port⟩ bytes ∧
      (Ipv4Addr.isPrivate address ∨ Ipv4Addr.isLinkLocal address) ∧
      IsResponse query verifyingKey bytes := by
  simp [sources]

/-- A datagram that is not received whole is no response. -/
theorem sources_of_oversized {turn : Turn} (h : turn.Oversized) :
    sources query verifyingKey [turn] = ∅ := by
  apply Set.eq_empty_of_forall_notMem
  intro address hmem
  obtain ⟨port, bytes, hreceived, -, hresponse⟩ := mem_sources_singleton.mp hmem
  obtain ⟨source, bytes', hsame, hlong⟩ := h
  rw [hreceived] at hsame
  obtain ⟨-, rfl⟩ := Reception.datagram.inj hsame
  have hshort := isResponse_length hresponse
  omega

theorem candidateOf_cut (hlong : discoveryResponseBytes + 1 < bytes.length) :
    candidateOf query verifyingKey (bytes.take (discoveryResponseBytes + 1)) source = none := by
  cases hcandidate :
      candidateOf query verifyingKey (bytes.take (discoveryResponseBytes + 1)) source with
  | none => rfl
  | some endpoint =>
      obtain ⟨address, -, -, -, hresponse⟩ := candidateOf_eq_some.mp hcandidate
      have hshort := isResponse_length hresponse
      rw [List.length_take] at hshort
      omega

variable (platform query verifyingKey) in
theorem effect (turn : Turn)
    (htolerated : ∀ kind, turn.received = .failed kind → kind.tolerated = true) :
    Effect platform query verifyingKey turn := by
  cases hreceived : turn.received with
  | failed kind =>
      have hnone : ¬ turn.Oversized := by
        rintro ⟨source, bytes, hsame, -⟩
        rw [hreceived] at hsame
        cases hsame
      refine .tolerated hnone (by rw [hreceived]; rfl) (htolerated kind hreceived) ?_
      apply Set.eq_empty_of_forall_notMem
      intro address hmem
      obtain ⟨port, bytes, hsame, -⟩ := mem_sources_singleton.mp hmem
      rw [hreceived] at hsame
      cases hsame
  | datagram source bytes =>
      by_cases hfits : bytes.length ≤ discoveryResponseBytes + 1
      · have hwhole : ¬ turn.Oversized := by
          rintro ⟨source', bytes', hsame, hlong⟩
          rw [hreceived] at hsame
          obtain ⟨-, rfl⟩ := Reception.datagram.inj hsame
          omega
        have hrecv : recvFrom platform (discoveryResponseBytes + 1) turn.received =
            .ok (bytes, source) := by
          rw [hreceived]
          exact if_pos hfits
        cases hcandidate : candidateOf query verifyingKey bytes source with
        | none =>
            refine .passed (fun hover => absurd hover hwhole) hrecv hcandidate ?_
            apply Set.eq_empty_of_forall_notMem
            intro address hmem
            obtain ⟨port, bytes', hsame, hroute, hresponse⟩ := mem_sources_singleton.mp hmem
            rw [hreceived] at hsame
            obtain ⟨rfl, rfl⟩ := Reception.datagram.inj hsame
            have hsome : candidateOf query verifyingKey bytes ⟨.v4 address, port⟩ =
                some ⟨.v4 address, wifiUnwrapPort⟩ :=
              candidateOf_eq_some.mpr ⟨address, rfl, rfl, hroute, hresponse⟩
            rw [hcandidate] at hsome
            cases hsome
        | some endpoint =>
            obtain ⟨address, hip, rfl, hroute, hresponse⟩ := candidateOf_eq_some.mp hcandidate
            refine .candidate hwhole hrecv hcandidate ?_
            ext other
            rw [mem_sources_singleton, Set.mem_singleton_iff]
            constructor
            · rintro ⟨port, bytes', hsame, -⟩
              rw [hreceived] at hsame
              obtain ⟨rfl, -⟩ := Reception.datagram.inj hsame
              exact IpAddr.v4.inj hip
            · rintro rfl
              refine ⟨source.port, bytes, ?_, hroute, hresponse⟩
              rw [hreceived, ← hip]
      · have hlong : discoveryResponseBytes + 1 < bytes.length := not_le.mp hfits
        have hover : turn.Oversized := ⟨source, bytes, hreceived, hlong⟩
        cases platform with
        | windows =>
            refine .refused rfl hover ?_
            rw [hreceived]
            exact if_neg hfits
        | unix =>
            have hrecv : recvFrom .unix (discoveryResponseBytes + 1) turn.received =
                .ok (bytes.take (discoveryResponseBytes + 1), source) := by
              rw [hreceived]
              exact if_neg hfits
            exact .passed (fun _ => rfl) hrecv (candidateOf_cut hlong) (sources_of_oversized hover)

end Candidates

section Outcome

variable {platform : Platform} {query : DiscoveryQuery} {verifyingKey : Option VerifyingKey}
  {found known : Set Ipv4Addr} {address : Ipv4Addr} {turn : Turn} {turns : List Turn}
  {deadline nextSend : ℕ} {outcome : Except WifiError SocketAddr}

theorem selects_empty : Selects ∅ (.error .discoveryUnavailable) := by
  constructor
  · intro endpoint
    simp [Set.ext_iff]
  · simp
  · simp

theorem selects_singleton : Selects {address} (.ok ⟨.v4 address, wifiUnwrapPort⟩) := by
  constructor
  · intro endpoint
    simp [eq_comm]
  · simp
  · simp

theorem selects_nontrivial (h : found.Nontrivial) : Selects found (.error .discoveryAmbiguous) := by
  constructor
  · intro endpoint
    have hnot : ∀ address, found ≠ {address} := fun address => h.ne_singleton
    simp [hnot]
  · simp [h]
  · simp [h.nonempty.ne_empty]

/-- Discovery never fails where it selects. -/
theorem not_selects_discovery : ¬ Selects found (.error .discovery) := by
  intro h
  rcases found.eq_empty_or_nonempty with hempty | hnonempty
  · cases h.unavailable.mpr hempty
  · rcases hnonempty.exists_eq_singleton_or_nontrivial with ⟨address, hone⟩ | hmany
    · cases (h.selected _).mpr ⟨address, hone, rfl⟩
    · cases h.ambiguous.mpr hmany

/-- The datagrams that do not fit come only once more than one source is known. -/
def Late (query : DiscoveryQuery) (verifyingKey : Option VerifyingKey) (known : Set Ipv4Addr)
    (turns : List Turn) : Prop :=
  ∀ earlier turn later, turns = earlier ++ turn :: later → turn.Oversized →
    (known ∪ sources query verifyingKey earlier).Nontrivial

theorem late_cons : Late query verifyingKey known (turn :: turns) ↔
    (turn.Oversized → known.Nontrivial) ∧
      Late query verifyingKey (known ∪ sources query verifyingKey [turn]) turns := by
  have hnil : sources query verifyingKey [] = ∅ := by simp [sources]
  constructor
  · intro h
    constructor
    · intro hover
      simpa [hnil] using h [] turn turns rfl hover
    · intro earlier other later hsplit hover
      have hmany := h (turn :: earlier) other later (by rw [hsplit]; rfl) hover
      rwa [sources_cons, ← Set.union_assoc] at hmany
  · intro h earlier other later hsplit hover
    cases earlier with
    | nil =>
        obtain ⟨rfl, -⟩ := List.cons.inj hsplit
        simpa [hnil] using h.1 hover
    | cons first earlier =>
        obtain ⟨rfl, hrest⟩ := List.cons.inj hsplit
        have hmany := h.2 earlier other later hrest hover
        rwa [sources_cons, ← Set.union_assoc]

theorem late_of_nontrivial (h : known.Nontrivial) : Late query verifyingKey known turns := by
  intro earlier turn later _ _
  exact h.mono Set.subset_union_left

theorem late_nil : Late query verifyingKey known [] := by
  intro earlier turn later hsplit
  simp at hsplit

/-- A turn before the deadline whose send succeeds and whose error is tolerated. -/
def Turn.Scheduled (deadline : ℕ) (turn : Turn) : Prop :=
  turn.now < deadline ∧ turn.sent = .ok () ∧
    ∀ kind, turn.received = .failed kind → kind.tolerated = true

variable (platform query verifyingKey nextSend turns) in
/-- The turn of the loop from what is received on. -/
theorem discoverTurns_cons (candidates : List SocketAddr) (h : turn.Scheduled deadline) :
    ∃ next, discoverTurns platform query verifyingKey deadline nextSend candidates (turn :: turns) =
      match recvFrom platform (discoveryResponseBytes + 1) turn.received with
      | .error kind =>
          if kind.tolerated then
            discoverTurns platform query verifyingKey deadline next candidates turns
          else .error .discovery
      | .ok received =>
          match candidateOf query verifyingKey received.1 received.2 with
          | none => discoverTurns platform query verifyingKey deadline next candidates turns
          | some endpoint =>
              match recordDiscoveryCandidate candidates endpoint with
              | .error failure => .error failure
              | .ok candidates =>
                  discoverTurns platform query verifyingKey deadline next candidates turns := by
  refine ⟨if nextSend ≤ turn.now then turn.now + discoveryRetryInterval else nextSend, ?_⟩
  have hsent : (if nextSend ≤ turn.now then turn.sent else Except.ok ()) = Except.ok () := by
    rw [h.2.1, ite_self]
  rw [discoverTurns, if_neg (not_le.mpr h.1), hsent]

/-- The candidates taken so far and their addresses: none or one. -/
inductive Taken : List SocketAddr → Set Ipv4Addr → Prop
  | none : Taken [] ∅
  | one (address : Ipv4Addr) : Taken [⟨.v4 address, wifiUnwrapPort⟩] {address}

theorem Taken.selects {candidates : List SocketAddr} (h : Taken candidates known) :
    Selects known (conclude candidates) := by
  cases h with
  | none => exact selects_empty
  | one address => exact selects_singleton

theorem Taken.few {candidates : List SocketAddr} (h : Taken candidates known) :
    ¬ known.Nontrivial := by
  cases h with
  | none => exact Set.not_nontrivial_empty
  | one address => exact Set.not_nontrivial_singleton

/-- A candidate is the one already taken, or a second one ends the loop. -/
theorem Taken.record {candidates : List SocketAddr} (h : Taken candidates known)
    (address : Ipv4Addr) :
    (∃ next, recordDiscoveryCandidate candidates ⟨.v4 address, wifiUnwrapPort⟩ = .ok next ∧
        Taken next (known ∪ {address})) ∨
      recordDiscoveryCandidate candidates ⟨.v4 address, wifiUnwrapPort⟩ =
          .error .discoveryAmbiguous ∧ (known ∪ {address}).Nontrivial := by
  cases h with
  | none =>
      refine Or.inl ⟨[⟨.v4 address, wifiUnwrapPort⟩], rfl, ?_⟩
      rw [Set.empty_union]
      exact .one address
  | one taken =>
      by_cases hsame : address = taken
      · subst hsame
        refine Or.inl ⟨[⟨.v4 address, wifiUnwrapPort⟩], ?_, ?_⟩
        · simp [recordDiscoveryCandidate]
        · rw [Set.union_self]
          exact .one address
      · refine Or.inr ⟨?_, taken, by simp, address, by simp, Ne.symm hsame⟩
        simp [recordDiscoveryCandidate, hsame]

variable (platform query verifyingKey nextSend) in
/-- The loop selects among what is known and what is received on, unless a datagram that does not
fit comes too early on Windows. -/
theorem selects_turns_iff {candidates : List SocketAddr} (h : Taken candidates known)
    (hturns : ∀ turn ∈ turns, turn.Scheduled deadline) :
    Selects (known ∪ sources query verifyingKey turns)
        (discoverTurns platform query verifyingKey deadline nextSend candidates turns) ↔
      platform = .unix ∨ Late query verifyingKey known turns := by
  induction turns generalizing candidates known nextSend with
  | nil =>
      have hnil : known ∪ sources query verifyingKey [] = known := by simp [sources]
      rw [hnil]
      exact iff_of_true h.selects (Or.inr late_nil)
  | cons turn turns ih =>
      obtain ⟨hturn, hturns⟩ := List.forall_mem_cons.mp hturns
      obtain ⟨next, hloop⟩ := discoverTurns_cons platform query verifyingKey turns nextSend
        candidates hturn
      rw [hloop, sources_cons, ← Set.union_assoc, late_cons]
      cases effect platform query verifyingKey turn hturn.2.2 with
      | refused hwindows hover hrecv =>
          rw [hrecv]
          apply iff_of_false not_selects_discovery
          rw [hwindows]
          rintro (hunix | hlate)
          · cases hunix
          · exact h.few (hlate.1 hover)
      | tolerated hwhole hrecv hkind hnone =>
          rw [hrecv, hnone, Set.union_empty]
          dsimp only
          rw [if_pos hkind, ih next h hturns]
          tauto
      | passed hunix hrecv hcandidate hnone =>
          rw [hrecv, hnone, Set.union_empty]
          dsimp only
          rw [hcandidate]
          dsimp only
          rw [ih next h hturns]
          tauto
      | @candidate received address hwhole hrecv hcandidate hone =>
          rw [hrecv, hone]
          dsimp only
          rw [hcandidate]
          dsimp only
          rcases h.record address with ⟨candidates', hrecord, htaken⟩ | ⟨hrecord, hmany⟩
          · rw [hrecord]
            dsimp only
            rw [ih next htaken hturns]
            tauto
          · rw [hrecord]
            dsimp only
            apply iff_of_true
            · exact selects_nontrivial (hmany.mono Set.subset_union_left)
            · exact Or.inr ⟨fun hover => absurd hover hwhole, late_of_nontrivial hmany⟩

/-- Discovery selects a route exactly when it is unambiguous, if and only if the desktop runs on
Unix or no datagram that does not fit is received before two sources are known. -/
theorem discovery_selects_iff (platform : Platform) (query : DiscoveryQuery)
    (verifyingKey : Option VerifyingKey) (started timeout nextSend : ℕ) {turns : List Turn}
    (hturns : ∀ turn ∈ turns, turn.Scheduled (started + timeout)) :
    Selects (sources query verifyingKey turns)
        (discoverWithIo platform query verifyingKey started timeout nextSend turns) ↔
      platform = .unix ∨ ∀ earlier turn later, turns = earlier ++ turn :: later →
        turn.Oversized → (sources query verifyingKey earlier).Nontrivial := by
  unfold discoverWithIo
  have hiff := selects_turns_iff platform query verifyingKey nextSend .none hturns
  simpa only [Late, Set.empty_union] using hiff

section Sample

def sampleQuery : DiscoveryQuery :=
  ⟨.pairing, Bytes.replicate 32 3, Bytes.replicate 16 4, Bytes.replicate 16 0⟩

/-- A datagram of 138 bytes, then the response of a listener. -/
def sampleTurns : List Turn :=
  [⟨10, .ok (), .datagram ⟨.v4 ⟨[192, 168, 1, 9], rfl⟩, 5353⟩ (List.replicate 138 0)⟩,
    ⟨20, .ok (), .datagram ⟨.v4 ⟨[192, 168, 1, 2], rfl⟩, 47141⟩
      (encodeDiscovery sampleQuery discoveryResponse)⟩]

theorem sampleTurns_scheduled : ∀ turn ∈ sampleTurns, turn.Scheduled (0 + 3000) := by
  simp [sampleTurns, Turn.Scheduled]

theorem discovery_selects_iff_sample : Selects (sources sampleQuery none sampleTurns)
    (discoverWithIo .unix sampleQuery none 0 3000 0 sampleTurns) :=
  (discovery_selects_iff .unix sampleQuery none 0 3000 0 sampleTurns_scheduled).mpr (Or.inl rfl)

/-- On Windows the datagram that does not fit ends the discovery. -/
theorem discovery_ended : ¬ ∀ platform query verifyingKey started timeout nextSend turns,
    (∀ turn ∈ turns, turn.Scheduled (started + timeout)) →
      Selects (sources query verifyingKey turns)
        (discoverWithIo platform query verifyingKey started timeout nextSend turns) := by
  intro h
  have hselects := h .windows sampleQuery none 0 3000 0 sampleTurns sampleTurns_scheduled
  have hended :
      discoverWithIo .windows sampleQuery none 0 3000 0 sampleTurns = .error .discovery := by
    simp [discoverWithIo, discoverTurns, sampleTurns, recvFrom, ErrorKind.tolerated,
      discoveryResponseBytes, discoveryQueryBytes, discoverySignatureBytes]
  rw [hended] at hselects
  exact not_selects_discovery hselects

end Sample

end Outcome

end AgePluginPhone.Desktop.Wifi
