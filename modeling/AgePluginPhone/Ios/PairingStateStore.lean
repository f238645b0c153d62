import AgePluginPhone.Ios.OfflineEnvelope
import AgePluginPhone.Library.Storage

/-!
# iOS pairing-state store

`PairingStateStore` over its directory of `<digest>.cbor` and `<digest>.deleting` files. Lock and
temporary files are hidden from every listing and left out. All calls run on one serial queue.
-/

namespace AgePluginPhone.Ios

open Library Cbor StrictCbor StorageM

structure PairingRecord where
  desktopId : Bytes 16
  identityId : Bytes 16
  desktopLabel : String
  recipient : String
  desktopSigningPublicKey : Bytes 33
  desktopSelectionPublicKey : Bytes 33
  phoneSigningPublicKey : Bytes 33
  offerDigest : Digest
  transcriptFingerprint : Digest
  deriving DecidableEq

structure ReplayEntry where
  requestId : Bytes 16
  nonce : Bytes 32
  expiresAt : U64
  deriving DecidableEq

namespace ReplayEntry

/-- `entryLess` compares the request identifier, the nonce and the expiry, in this order. -/
def sortKey (e : ReplayEntry) : List Byte ×ₗ List Byte ×ₗ U64 :=
  toLex (e.requestId.1, toLex (e.nonce.1, e.expiresAt))

theorem sortKey_injective : Function.Injective sortKey := by
  intro a b h
  simp only [sortKey, EmbeddingLike.apply_eq_iff_eq, Prod.mk.injEq] at h
  cases a
  cases b
  simp only [ReplayEntry.mk.injEq]
  exact ⟨Subtype.ext h.1, Subtype.ext h.2.1, h.2.2⟩

instance : LinearOrder ReplayEntry := LinearOrder.lift' sortKey sortKey_injective

end ReplayEntry

structure PairingState where
  record : PairingRecord
  createdAt : U64
  lastSeen : U64
  capacity : ℕ
  entries : List ReplayEntry
  deriving DecidableEq

/-- A file of the directory: its digest, and whether it has the `deleting` extension. -/
abbrev FileKey := Digest × Bool

abbrev Directory := AList fun _ : FileKey => List Byte

abbrev Io := StorageM Directory Failure

structure PairedDesktopSummary where
  handle : Digest
  displayLabel : String
  transcriptFingerprint : Digest
  deletionPending : Bool
  deriving DecidableEq

def maximumStateBytes : ℕ := 1048576

def maximumCapacity : ℕ := 16384

def stateDomain : List Byte := utf8 "age-plugin-phone/ios-pairing-state-scope/v2"

def managementDomain : List Byte := utf8 "age-plugin-phone/ios-pairing-management/v1"

variable (K : CryptoKit)

def stateURL (desktopId identityId : Bytes 16) : FileKey :=
  (K.sha256 (stateDomain ++ [0] ++ desktopId.1 ++ identityId.1), false)

def handle (record : PairingRecord) : Digest :=
  K.sha256 (managementDomain ++ [0] ++ record.identityId.1 ++ record.desktopId.1 ++
    record.transcriptFingerprint.1)

section Encoding

def entryItem (e : ReplayEntry) : Item :=
  .array [.bytes e.requestId, .bytes e.nonce, .unsigned e.expiresAt]

def PairingState.fields (s : PairingState) : List Item :=
  [.unsigned 2, .bytes s.record.desktopId, .bytes s.record.identityId,
    .text s.record.desktopLabel, .text s.record.recipient,
    .bytes s.record.desktopSigningPublicKey, .bytes s.record.desktopSelectionPublicKey,
    .bytes s.record.phoneSigningPublicKey, .bytes s.record.offerDigest,
    .bytes s.record.transcriptFingerprint, .unsigned s.createdAt, .unsigned s.lastSeen,
    .unsigned s.capacity, .array (s.entries.map entryItem)]

def PairingState.item (s : PairingState) : Item := .array s.fields

def encode (s : PairingState) : List Byte := s.item.encode

/-- Swift's `Int(_:)` of an unsigned number. -/
def intOfUnsigned (n : U64) : Except Failure ℕ :=
  if n.val < 9223372036854775808 then .ok n.val else .error .trap

def decodeEntry (value : Item) : Except Failure ReplayEntry := do
  match ← cbor (exactArray 3 value) with
  | [requestId, nonce, expiresAt] =>
      return ⟨← cbor (exactBytes 16 requestId), ← cbor (exactBytes 32 nonce),
        ← cbor (exactUnsigned expiresAt)⟩
  | _ => .error (.cbor .malformed)

/-- The elements of an array value. -/
def entryValues : Item → Option (List Item)
  | .array items => some items
  | _ => none

/-- The guards of `decode` on the role keys. -/
def requireRoles (record : PairingRecord) : Except Failure Unit := do
  ensure (record.desktopSigningPublicKey ≠ record.desktopSelectionPublicKey ∧
    record.desktopSigningPublicKey ≠ record.phoneSigningPublicKey ∧
    record.desktopSelectionPublicKey ≠ record.phoneSigningPublicKey) (.store .malformed)
  let _ ← publicKey K record.desktopSigningPublicKey
  let _ ← publicKey K record.desktopSelectionPublicKey
  let _ ← publicKey K record.phoneSigningPublicKey

def requireEntries (lastSeen : U64) (entries : List ReplayEntry) : Except Failure Unit :=
  ensure ((∀ e ∈ entries, lastSeen ≤ e.expiresAt) ∧ entries = entries.insertionSort (· ≤ ·) ∧
    (entries.map ReplayEntry.requestId).Nodup ∧ (entries.map ReplayEntry.nonce).Nodup)
    (.store .malformed)

def decode (data : List Byte) : Except Failure PairingState := do
  ensure (data.length ≤ maximumStateBytes) (.store .capacity)
  match ← cbor (StrictCbor.decode data maximumStateBytes maximumCapacity >>= exactArray 14) with
  | [version, desktopId, identityId, label, recipient, signing, selection, phoneSigning,
      offerDigest, fingerprint, created, lastSeen, capacity, entries] =>
      let version ← cbor (exactUnsigned version)
      ensure (version.val = 2) (.store .malformed)
      let desktopId ← cbor (exactBytes 16 desktopId)
      let identityId ← cbor (exactBytes 16 identityId)
      let label ← cbor (boundedText 64 label)
      let recipient ← cbor (boundedText 160 recipient)
      let signing ← cbor (exactBytes 33 signing)
      let selection ← cbor (exactBytes 33 selection)
      let phoneSigning ← cbor (exactBytes 33 phoneSigning)
      let offerDigest ← cbor (exactBytes 32 offerDigest)
      let fingerprint ← cbor (exactBytes 32 fingerprint)
      let record : PairingRecord := ⟨desktopId, identityId, label, recipient, signing, selection,
        phoneSigning, offerDigest, fingerprint⟩
      requireRoles K record
      let created ← cbor (exactUnsigned created)
      let lastSeen ← cbor (exactUnsigned lastSeen)
      let capacity ← intOfUnsigned (← cbor (exactUnsigned capacity))
      ensure (created ≤ lastSeen ∧ 1 ≤ capacity ∧ capacity ≤ maximumCapacity) (.store .malformed)
      let values ← okOr (entryValues entries) (.store .malformed)
      ensure (values.length ≤ capacity) (.store .malformed)
      let entries ← values.mapM decodeEntry
      requireEntries lastSeen entries
      return ⟨record, created, lastSeen, capacity, entries⟩
  | _ => .error (.cbor .malformed)

end Encoding

section Calls

/-- A step that changes no pairing file: opening the lock or temporary file, writing the
temporary file, setting attributes, syncing the directory. -/
def settle : Io Unit := effect (fun w => some w) (.store .storage)

/-- `durableReplace`; the rename refuses to replace a file it is to create. -/
def durableReplace (data : List Byte) (url : FileKey) (createOnly : Bool) : Io Unit := do
  check (ensure (createOnly → (← load).lookup url = none) (.store .exists))
  settle
  settle
  effect (fun w => if createOnly ∧ w.lookup url ≠ none then none else some (w.insert url data))
    (.store .storage)
  settle
  settle

def pairingRecord (offer : VerifiedPairingOffer K) (response : VerifiedPairingResponse K) :
    PairingRecord where
  desktopId := offer.desktopId
  identityId := response.identityId
  desktopLabel := offer.desktopLabel
  recipient := response.recipient
  desktopSigningPublicKey := compressed K offer.desktopSigningPublicKey
  desktopSelectionPublicKey := compressed K offer.desktopSelectionPublicKey
  phoneSigningPublicKey := compressed K response.phoneSigningPublicKey
  offerDigest := offer.digest
  transcriptFingerprint := pairingFingerprint K offer response

def initialState (record : PairingRecord) (nowUnix : U64) : PairingState :=
  ⟨record, nowUnix, nowUnix, 1024, []⟩

def create (offer : VerifiedPairingOffer K) (response : VerifiedPairingResponse K)
    (nowUnix : U64) : Io Digest := do
  check (ensure (response.offerDigest = offer.digest) (.store .malformed))
  let record := pairingRecord K offer response
  let url := stateURL K record.desktopId record.identityId
  settle
  check (ensure ((← load).lookup url = none) (.store .exists))
  durableReplace (encode (initialState record nowUnix)) url true
  return handle K record

def summary (key : FileKey) (record : PairingRecord) : PairedDesktopSummary :=
  ⟨handle K record, record.desktopLabel, record.transcriptFingerprint, key.2⟩

/-- The summary of a listed file, if it is a pairing of the identity. -/
def fileSummary (identityId : Bytes 16) (file : Sigma fun _ : FileKey => List Byte) :
    Except Failure (Option PairedDesktopSummary) := do
  let state ← decode K file.2
  return if state.record.identityId = identityId then some (summary K file.1 state.record) else none

def summaries (files : Directory) (identityId : Bytes 16) :
    Except Failure (List PairedDesktopSummary) := do
  let found ← files.entries.mapM (fileSummary K identityId)
  return found.reduceOption.insertionSort fun a b => a.handle ≤ b.handle

/-- `matchingURL` on the listed files, in directory order. -/
def matchingURL (requested : Digest) (identityId : Bytes 16) :
    List (Sigma fun _ : FileKey => List Byte) → Except Failure (Option FileKey)
  | [] => .ok none
  | file :: files => do
      let state ← decode K file.2
      if state.record.identityId = identityId ∧ handle K state.record = requested then
        return some file.1
      matchingURL requested identityId files

def renameFile (source target : FileKey) : Io Unit :=
  effect (fun w => (w.lookup source).map fun content => (w.erase source).insert target content)
    (.store .storage)

def unlinkFile (url : FileKey) : Io Unit :=
  effect (fun w => (w.lookup url).map fun _ => w.erase url) (.store .storage)

def revoke (requested : Digest) (identityId : Bytes 16) : Io Unit := do
  let found ← check (matchingURL K requested identityId (← load).entries)
  let url ← check (okOr found (.store .missing))
  settle
  let content ← check (okOr ((← load).lookup url) (.store .storage))
  let state ← check (decode K content)
  check (ensure (handle K state.record = requested) (.store .wrongScope))
  if url.2 = false then do
    renameFile url (url.1, true)
    settle
  unlinkFile (url.1, true)
  settle

def revokeAll (identityId : Bytes 16) : Io Unit := do
  let items ← check (summaries K (← load) identityId)
  items.forM fun item => revoke K item.handle identityId

end Calls

end AgePluginPhone.Ios
