import AgePluginPhone.Core.Minicbor
import AgePluginPhone.Core.ReplayState

/-!
# Replay-state encoding

`ReplayState::encode`, `decode` and `validate`, and the round trip between them on well-formed
states.
-/

namespace AgePluginPhone.Core

open Library

def stateVersion : U16 := 2

def requestEntry : U16 := 1

def responseEntry : U16 := 2

def ReplayRole.code : ReplayRole → U16
  | phoneRequests => 1
  | desktopResponses => 2

def ReplayRole.tryFrom (value : U16) : Except ProtocolError ReplayRole :=
  if value = 1 then .ok .phoneRequests
  else if value = 2 then .ok .desktopResponses
  else .error .replayState

def encodeEntry : ReplayEntry → List Byte
  | .request requestId nonce expires =>
      encodeArray 4 ++ encodeUnsigned requestEntry ++ encodeBytes requestId ++
        encodeBytes nonce ++ encodeUnsigned expires
  | .response digest expires =>
      encodeArray 3 ++ encodeUnsigned responseEntry ++ encodeBytes digest ++
        encodeUnsigned expires

def ReplayState.encode (s : ReplayState) : List Byte :=
  encodeArray 6 ++ encodeUnsigned stateVersion ++ encodeUnsigned s.scope.role.code ++
    encodeBytes s.scope.desktopId ++ encodeBytes s.scope.identityId ++
    encodeUnsigned s.lastSeenUnix ++ encodeArray s.entries.length ++
    s.entries.flatMap encodeEntry

/-- A computation over the remaining input of a `minicbor::Decoder`. -/
abbrev Decode := StateT (List Byte) (Except ProtocolError)

namespace Decode

variable {α β : Type}

def read (reader : List Byte → Option (α × List Byte)) : Decode α :=
  fun input => okOr (reader input) .replayState

def check (result : Except ProtocolError α) : Decode α := fun input => do
  let a ← result
  return (a, input)

theorem bind_apply (x : Decode α) (f : α → Decode β) (input : List Byte) :
    (x >>= f) input = x input >>= fun r => f r.1 r.2 := rfl

theorem pure_apply (a : α) (input : List Byte) : (pure a : Decode α) input = .ok (a, input) := rfl

theorem map_apply (f : α → β) (x : Decode α) (input : List Byte) :
    (f <$> x) input = x input >>= fun r => .ok (f r.1, r.2) := rfl

@[simp] theorem check_apply (result : Except ProtocolError α) (input : List Byte) :
    check result input = result >>= fun a => .ok (a, input) := rfl

end Decode

variable (m : Minicbor)

def exactArray (expected : ℕ) : Decode Unit := do
  let count ← Decode.read m.array
  Decode.check (ensure (count = some expected) .replayState)

def fixed (n : ℕ) : Decode (Bytes n) := do
  let bytes ← Decode.read m.bytes
  if h : bytes.length = n then return ⟨bytes, h⟩ else Decode.check (.error .replayState)

def expectU16 (expected : U16) : Decode Unit := do
  let value ← Decode.read m.u16
  Decode.check (ensure (value = expected) .replayState)

def decodeEntry : ReplayRole → Decode ReplayEntry
  | .phoneRequests => do
      exactArray m 4
      expectU16 m requestEntry
      let requestId ← fixed m 16
      let nonce ← fixed m 32
      let expires ← Decode.read m.u64
      return .request requestId nonce expires
  | .desktopResponses => do
      exactArray m 3
      expectU16 m responseEntry
      let digest ← fixed m 32
      let expires ← Decode.read m.u64
      return .response digest expires

def decodeEntries (role : ReplayRole) : ℕ → Decode (List ReplayEntry)
  | 0 => return []
  | count + 1 => do
      let entry ← decodeEntry m role
      let entries ← decodeEntries role count
      return entry :: entries

def decodeFields (capacity : ℕ) : Decode ReplayState := do
  exactArray m 6
  expectU16 m stateVersion
  let role ← Decode.read m.u16
  let role ← Decode.check (ReplayRole.tryFrom role)
  let desktopId ← fixed m 16
  let identityId ← fixed m 16
  let lastSeenUnix ← Decode.read m.u64
  let count ← Decode.read m.array
  let count ← Decode.check (okOr count .replayState)
  Decode.check (ensure (count ≤ capacity) .replayCapacity)
  let entries ← decodeEntries m role count
  return ⟨⟨role, desktopId, identityId⟩, lastSeenUnix, entries⟩

def validateCapacity (capacity : ℕ) : Except ProtocolError Unit :=
  ensure (1 ≤ capacity ∧ capacity ≤ maxConfiguredEntries) .replayCapacity

/-- The uniqueness loop of `validate`, with its hash sets as accumulators. -/
def uniqueFrom (role : ReplayRole) :
    List Id → List ProtocolNonce → List ProtocolDigest → List ReplayEntry → Bool
  | _, _, _, [] => true
  | requestIds, nonces, responses, .request requestId nonce _ :: rest =>
      role = .phoneRequests && requestId ∉ requestIds && nonce ∉ nonces &&
        uniqueFrom role (requestId :: requestIds) (nonce :: nonces) responses rest
  | requestIds, nonces, responses, .response digest _ :: rest =>
      role = .desktopResponses && digest ∉ responses &&
        uniqueFrom role requestIds nonces (digest :: responses) rest

def ReplayState.validate (s : ReplayState) (capacity : ℕ) : Except ProtocolError Unit := do
  validateCapacity capacity
  ensure (s.entries.length ≤ capacity ∧
    (∀ entry ∈ s.entries, s.lastSeenUnix ≤ entry.expiresAtUnix) ∧
    s.entries.IsChain (· < ·)) .replayState
  ensure (uniqueFrom s.scope.role [] [] [] s.entries) .replayState

def ReplayState.decode (encoded : List Byte) (capacity : ℕ) : Except ProtocolError ReplayState := do
  let (state, rest) ← decodeFields m capacity encoded
  ensure (rest = []) .replayState
  state.validate capacity
  ensure (state.encode = encoded) .replayState
  return state

/-- The shape `validate` enforces, apart from the configured capacity. -/
structure ReplayState.WellFormed (s : ReplayState) : Prop where
  live : ∀ entry ∈ s.entries, s.lastSeenUnix ≤ entry.expiresAtUnix
  sorted : s.entries.Pairwise (· < ·)
  role : ∀ entry ∈ s.entries, entry.role = s.scope.role
  unique : s.entries.Pairwise fun a b => a.duplicates b = false

section RoundTrip

variable {m}

theorem exactArray_encodeArray {n : ℕ} (h : n < 2 ^ 64) (rest : List Byte) :
    exactArray m n (encodeArray n ++ rest) = .ok ((), rest) := by
  simp [exactArray, Decode.bind_apply, Decode.read, m.array_encodeArray n rest h, ensure]

theorem expectU16_encodeUnsigned (n : U16) (rest : List Byte) :
    expectU16 m n (encodeUnsigned n ++ rest) = .ok ((), rest) := by
  simp [expectU16, Decode.bind_apply, Decode.read, m.u16_encodeUnsigned, ensure]

theorem fixed_encodeBytes {n : ℕ} (hn : n < 2 ^ 64) (bytes : Bytes n) (rest : List Byte) :
    fixed m n (encodeBytes bytes ++ rest) = .ok (bytes, rest) := by
  have hread := m.bytes_encodeBytes bytes.1 rest (by rw [bytes.2]; exact hn)
  simp [fixed, Decode.bind_apply, Decode.read, hread, bytes.2, Decode.pure_apply]

theorem read_u64_encodeUnsigned (n : U64) (rest : List Byte) :
    Decode.read m.u64 (encodeUnsigned n ++ rest) = .ok (n, rest) := by
  simp [Decode.read, m.u64_encodeUnsigned]

theorem read_u16_encodeUnsigned (n : U16) (rest : List Byte) :
    Decode.read m.u16 (encodeUnsigned n ++ rest) = .ok (n, rest) := by
  simp [Decode.read, m.u16_encodeUnsigned]

theorem read_array_encodeArray {n : ℕ} (h : n < 2 ^ 64) (rest : List Byte) :
    Decode.read m.array (encodeArray n ++ rest) = .ok (some n, rest) := by
  simp [Decode.read, m.array_encodeArray n rest h]

theorem decodeEntry_encodeEntry (entry : ReplayEntry) (rest : List Byte) :
    decodeEntry m entry.role (encodeEntry entry ++ rest) = .ok (entry, rest) := by
  cases entry <;>
    simp [decodeEntry, encodeEntry, Decode.bind_apply, Decode.map_apply, exactArray_encodeArray,
      expectU16_encodeUnsigned, fixed_encodeBytes, read_u64_encodeUnsigned]

theorem decodeEntries_flatMap {role : ReplayRole} {entries : List ReplayEntry}
    (h : ∀ entry ∈ entries, entry.role = role) (rest : List Byte) :
    decodeEntries m role entries.length (entries.flatMap encodeEntry ++ rest) =
      .ok (entries, rest) := by
  induction entries with
  | nil => rfl
  | cons entry entries ih =>
      obtain ⟨rfl, htail⟩ := List.forall_mem_cons.mp h
      simp [decodeEntries, Decode.bind_apply, Decode.map_apply, decodeEntry_encodeEntry, ih htail]

@[simp] theorem tryFrom_code (role : ReplayRole) : ReplayRole.tryFrom role.code = .ok role := by
  cases role <;> rfl

/-- Field decoding of an encoded state stops only at the capacity check. -/
theorem decodeFields_encode {s : ReplayState} (hs : s.WellFormed)
    (hlen : s.entries.length < 2 ^ 64) (capacity : ℕ) :
    decodeFields m capacity s.encode =
      if s.entries.length ≤ capacity then .ok (s, []) else .error .replayCapacity := by
  have hentries := decodeEntries_flatMap (m := m) hs.role []
  rw [List.append_nil] at hentries
  simp only [decodeFields, ReplayState.encode, List.append_assoc, Decode.bind_apply,
    exactArray_encodeArray (show 6 < 2 ^ 64 by decide), expectU16_encodeUnsigned, ok_bind,
    read_u16_encodeUnsigned, fixed_encodeBytes (show 16 < 2 ^ 64 by decide),
    read_u64_encodeUnsigned, read_array_encodeArray hlen, Decode.check_apply, tryFrom_code,
    okOr_some]
  by_cases hroom : s.entries.length ≤ capacity
  · simp only [ensure_true _ hroom, ok_bind, hentries, Decode.pure_apply, if_pos hroom]
  · simp only [ensure_false _ hroom, error_bind, if_neg hroom]

/-- Decoding the encoding of a well-formed state returns that state or nothing. -/
theorem decode_encode_unique {s t : ReplayState} (hs : s.WellFormed)
    (hlen : s.entries.length < 2 ^ 64) {capacity : ℕ}
    (h : ReplayState.decode m s.encode capacity = .ok t) : t = s := by
  rw [ReplayState.decode, decodeFields_encode hs hlen] at h
  split_ifs at h
  · simp only [ok_bind, bind_eq_ok, pure_eq_ok, Except.ok.injEq] at h
    obtain ⟨-, -, -, -, -, -, rfl⟩ := h
    rfl
  · simp at h

end RoundTrip

section Validation

theorem ReplayEntry.duplicates_comm (a b : ReplayEntry) : a.duplicates b = b.duplicates a := by
  cases a <;> cases b <;> simp [duplicates, eq_comm]

/-- The uniqueness loop accepts exactly entries of one role that neither repeat each other nor
the accumulated values. -/
theorem uniqueFrom_iff (role : ReplayRole) (requestIds : List Id) (nonces : List ProtocolNonce)
    (responses : List ProtocolDigest) (entries : List ReplayEntry) :
    uniqueFrom role requestIds nonces responses entries ↔
      (∀ entry ∈ entries, entry.role = role) ∧
      (entries.Pairwise fun a b => a.duplicates b = false) ∧
      (∀ requestId nonce expires, .request requestId nonce expires ∈ entries →
        requestId ∉ requestIds ∧ nonce ∉ nonces) ∧
      (∀ digest expires, .response digest expires ∈ entries → digest ∉ responses) := by
  induction entries generalizing requestIds nonces responses with
  | nil => simp [uniqueFrom]
  | cons entry entries ih =>
      cases entry with
      | request requestId nonce expires =>
          simp only [uniqueFrom, Bool.and_eq_true, decide_eq_true_eq, ih, List.pairwise_cons,
            List.mem_cons, forall_eq_or_imp, ReplayEntry.role_request]
          constructor
          · rintro ⟨⟨⟨hrole, hid⟩, hnonce⟩, hroles, huniq, hreq, hres⟩
            refine ⟨⟨hrole.symm, hroles⟩, ⟨?_, huniq⟩, ?_, ?_⟩
            · intro other hother
              cases other with
              | request id' nonce' expires' =>
                  have := hreq id' nonce' expires' hother
                  simp only [not_or] at this
                  simp [ReplayEntry.duplicates, this.1.1, this.2.1]
              | response => rfl
            · rintro id' nonce' expires' (h | h)
              · cases h; exact ⟨hid, hnonce⟩
              · have := hreq id' nonce' expires' h
                simp only [not_or] at this
                exact ⟨this.1.2, this.2.2⟩
            · rintro digest expires' (h | h)
              · cases h
              · exact hres digest expires' h
          · rintro ⟨⟨hrole, hroles⟩, ⟨hhead, huniq⟩, hreq, hres⟩
            obtain ⟨hid, hnonce⟩ := hreq requestId nonce expires (Or.inl rfl)
            refine ⟨⟨⟨hrole.symm, hid⟩, hnonce⟩, hroles, huniq, ?_, fun d e h => hres d e (Or.inr h)⟩
            intro id' nonce' expires' h
            have hdup := hhead _ h
            simp only [ReplayEntry.duplicates, Bool.or_eq_false_iff, decide_eq_false_iff_not] at hdup
            have hacc := hreq id' nonce' expires' (Or.inr h)
            exact ⟨by simp [hdup.1, hacc.1], by simp [hdup.2, hacc.2]⟩
      | response digest expires =>
          simp only [uniqueFrom, Bool.and_eq_true, decide_eq_true_eq, ih, List.pairwise_cons,
            List.mem_cons, forall_eq_or_imp, ReplayEntry.role_response]
          constructor
          · rintro ⟨⟨hrole, hdigest⟩, hroles, huniq, hreq, hres⟩
            refine ⟨⟨hrole.symm, hroles⟩, ⟨?_, huniq⟩, ?_, ?_⟩
            · intro other hother
              cases other with
              | request => rfl
              | response digest' expires' =>
                  have := hres digest' expires' hother
                  simp only [not_or] at this
                  simp [ReplayEntry.duplicates, this.1]
            · rintro id' nonce' expires' (h | h)
              · cases h
              · exact hreq id' nonce' expires' h
            · rintro digest' expires' (h | h)
              · cases h; exact hdigest
              · have := hres digest' expires' h
                simp only [not_or] at this
                exact this.2
          · rintro ⟨⟨hrole, hroles⟩, ⟨hhead, huniq⟩, hreq, hres⟩
            refine ⟨⟨hrole.symm, hres digest expires (Or.inl rfl)⟩, hroles, huniq,
              fun i n e h => hreq i n e (Or.inr h), ?_⟩
            intro digest' expires' h
            have hdup := hhead _ h
            simp only [ReplayEntry.duplicates, decide_eq_false_iff_not] at hdup
            simp [hdup, hres digest' expires' (Or.inr h)]

theorem validate_eq_ok {s : ReplayState} {capacity : ℕ} {u : Unit} :
    s.validate capacity = .ok u ↔
      (1 ≤ capacity ∧ capacity ≤ maxConfiguredEntries) ∧ s.entries.length ≤ capacity ∧
        s.WellFormed := by
  simp only [ReplayState.validate, validateCapacity, bind_eq_ok, ensure_eq_ok, exists_const,
    uniqueFrom_iff, List.isChain_iff_pairwise]
  constructor
  · rintro ⟨hcap, ⟨hlen, hlive, hsorted⟩, hrole, huniq, -, -⟩
    exact ⟨hcap, hlen, hlive, hsorted, hrole, huniq⟩
  · rintro ⟨hcap, hlen, hs⟩
    exact ⟨hcap, ⟨hlen, hs.live, hs.sorted⟩, hs.role, hs.unique, by simp, by simp⟩

variable {m}

/-- Well-formed states within the capacity survive encoding and decoding. -/
theorem decode_encode {s : ReplayState} {capacity : ℕ} (hs : s.WellFormed)
    (hcap : 1 ≤ capacity ∧ capacity ≤ maxConfiguredEntries) (hlen : s.entries.length ≤ capacity) :
    ReplayState.decode m s.encode capacity = .ok s := by
  have hbound : s.entries.length < 2 ^ 64 := by
    have := hcap.2
    simp only [maxConfiguredEntries] at this
    omega
  have hvalid : s.validate capacity = .ok () := validate_eq_ok.mpr ⟨hcap, hlen, hs⟩
  simp [ReplayState.decode, decodeFields_encode hs hbound, hlen, hvalid, ensure]

end Validation

section Bounds

/-- The largest replay file accepted on reading. -/
def maxStateBytes : ℕ := 1048576

theorem encodeBytes_length_le (bytes : List Byte) :
    (encodeBytes bytes).length ≤ 9 + bytes.length := by
  have := Cbor.head_length_le 2 bytes.length
  simp only [encodeBytes, List.length_append]
  omega

private theorem encodeId_length (id : Id) : (encodeBytes id).length = 17 := by
  simp [encodeBytes, id.2, Cbor.head_length_of_lt_24]

private theorem encodeNonce_length_le (nonce : ProtocolNonce) : (encodeBytes nonce).length ≤ 34 := by
  have := Cbor.head_length_le_of_lt_256 (n := nonce.1.length) 2 (by rw [nonce.2]; decide)
  simp only [encodeBytes, List.length_append, nonce.2] at this ⊢
  omega

private theorem encodeUnsigned_length_le (n : ℕ) : (encodeUnsigned n).length ≤ 9 :=
  Cbor.head_length_le 0 n

private theorem small_head_length (major : ℕ) {n : ℕ} (h : n < 24) :
    (Cbor.head major n).length = 1 := Cbor.head_length_of_lt_24 major h

theorem encodeEntry_length_le (entry : ReplayEntry) : (encodeEntry entry).length ≤ 62 := by
  cases entry with
  | request requestId nonce expires =>
      have hid := encodeId_length requestId
      have hnonce := encodeNonce_length_le nonce
      have hexpires := encodeUnsigned_length_le expires
      have harray : (encodeArray 4).length = 1 := small_head_length 4 (by decide)
      have htag : (encodeUnsigned requestEntry).length = 1 := small_head_length 0 (by decide)
      simp only [encodeEntry, List.length_append]
      omega
  | response digest expires =>
      have hdigest := encodeNonce_length_le digest
      have hexpires := encodeUnsigned_length_le expires
      have harray : (encodeArray 3).length = 1 := small_head_length 4 (by decide)
      have htag : (encodeUnsigned responseEntry).length = 1 := small_head_length 0 (by decide)
      simp only [encodeEntry, List.length_append]
      omega

private theorem flatMap_encodeEntry_length_le (entries : List ReplayEntry) :
    (entries.flatMap encodeEntry).length ≤ 62 * entries.length := by
  induction entries with
  | nil => simp
  | cons entry entries ih =>
      have := encodeEntry_length_le entry
      simp only [List.flatMap_cons, List.length_append, List.length_cons]
      omega

theorem encode_length_le (s : ReplayState) : s.encode.length ≤ 95 + 62 * s.entries.length := by
  have harray := Cbor.head_length_le 4 6
  have hversion := encodeUnsigned_length_le stateVersion
  have hrole := encodeUnsigned_length_le s.scope.role.code
  have hdesktop := encodeBytes_length_le s.scope.desktopId
  have hidentity := encodeBytes_length_le s.scope.identityId
  have hseen := encodeUnsigned_length_le s.lastSeenUnix
  have hcount := Cbor.head_length_le 4 s.entries.length
  have hentries := flatMap_encodeEntry_length_le s.entries
  have hd := s.scope.desktopId.2
  have hi := s.scope.identityId.2
  simp only [ReplayState.encode, List.length_append, encodeArray] at *
  omega

/-- Any number of entries a store can be configured for fits the file limit. -/
theorem encode_length_le_maxStateBytes {s : ReplayState}
    (h : s.entries.length ≤ maxConfiguredEntries) : s.encode.length ≤ maxStateBytes := by
  have := encode_length_le s
  simp only [maxConfiguredEntries, maxStateBytes] at *
  omega

theorem encode_ne_nil (s : ReplayState) : s.encode ≠ [] := by
  simp [ReplayState.encode, encodeArray, Cbor.head_ne_nil]

end Bounds

end AgePluginPhone.Core
