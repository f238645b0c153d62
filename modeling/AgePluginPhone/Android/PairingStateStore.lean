import AgePluginPhone.Android.PairingState
import AgePluginPhone.Library.Storage

/-!
# Android pairing-state store

`PairingStateStore` over one pairing directory. A missing directory reads as an empty one.
Files are written to a temporary name and renamed into place; revocation renames the state
file to its `.deleting` name before removing it. A store holds the lock of its state file from
opening to closing, and the lock dies with the process.
-/

namespace AgePluginPhone.Android

open Library Cbor StorageM

/-- `<digest>.cbor`, `<digest>.cbor.deleting` and the names of `createTempFile`. -/
inductive FileName
  | live (scope : Digest)
  | deleting (scope : Digest)
  | temporary (serial : ℕ)
  deriving DecidableEq

abbrev Files := AList fun _ : FileName => List Byte

/-- An open store object, apart from the file handles it wraps. -/
structure Store where
  state : State
  unusable : Bool
  deriving DecidableEq

/-- The pairing directory and the stores the process holds open, by locked state file. -/
structure World where
  files : Files
  opened : AList fun _ : Digest => Store

abbrev Io := StorageM World Category

structure VerifiedRequest where
  desktopId : Bytes 16
  identityId : Bytes 16
  requestId : Bytes 16
  nonce : Bytes 32
  expiresAtUnix : Long
  deriving DecidableEq

def VerifiedRequest.entry (r : VerifiedRequest) : Entry := ⟨r.requestId, r.nonce, r.expiresAtUnix⟩

structure Summary where
  handle : Digest
  deletionPending : Bool
  deriving DecidableEq

namespace World

def empty : World := ⟨∅, ∅⟩

def setFiles (w : World) (files : Files) : World := { w with files }

def updateStore (w : World) (scope : Digest) (f : Store → Store) : World :=
  match w.opened.lookup scope with
  | some store => { w with opened := w.opened.insert scope (f store) }
  | none => w

end World

section Files

def serial : FileName → ℕ
  | .temporary n => n
  | _ => 0

/-- A name `createTempFile` may pick: one that no file has. -/
def freshTemporary (files : Files) : FileName :=
  .temporary ((files.keys.map serial).foldr max 0 + 1)

def writeFile (name : FileName) (content : List Byte) : Io Unit :=
  effect (fun w => some (w.setFiles (w.files.insert name content))) .storage

/-- `Os.rename`. -/
def replaceFile (source target : FileName) : Io Unit :=
  effect (fun w => (w.files.lookup source).map fun content =>
    w.setFiles ((w.files.erase source).insert target content)) .storage

/-- `File.delete`, with the check that the file is gone. -/
def deleteFile (name : FileName) : Io Unit :=
  effect (fun w => some (w.setFiles (w.files.erase name))) .storage

/-- A storage step that changes no file content: permission changes and directory syncs. -/
def settle : Io Unit := effect (fun w => some w) .storage

end Files

section Names

variable (p : Platform)

def stateDomain : List Byte := utf8 "age-plugin-phone/android-pairing-state-scope/v2"

def managementDomain : List Byte := utf8 "age-plugin-phone/android-pairing-management/v1"

def stateFileInput (desktopId identityId : Bytes 16) : List Byte :=
  stateDomain ++ [0] ++ desktopId.1 ++ identityId.1

def stateFile (desktopId identityId : Bytes 16) : Digest :=
  p.sha256 (stateFileInput desktopId identityId)

def StoredPairingRecord.file (record : StoredPairingRecord) : Digest :=
  stateFile p record.desktopId record.identityId

def handleInput (record : StoredPairingRecord) : List Byte :=
  managementDomain ++ [0] ++ record.identityId.1 ++ record.desktopId.1 ++
    record.transcriptFingerprint.1

/-- `managementHandle`. Its callers reject every string that is not the hex form of a digest. -/
def managementHandle (record : StoredPairingRecord) : Digest := p.sha256 (handleInput record)

end Names

section Sample

private def sampleIdentityKey : Bytes 33 :=
  ⟨[3, 107, 23, 209, 242, 225, 44, 66, 71, 248, 188, 230, 229, 99, 164, 64, 242, 119, 3,
    125, 129, 45, 235, 51, 160, 244, 161, 57, 69, 216, 152, 194, 150], rfl⟩

def sampleRecord : StoredPairingRecord where
  desktopId := Bytes.replicate 16 1
  identityId := Bytes.replicate 16 2
  desktopLabel := "laptop"
  recipient := "age1phone1qypkk9737tsjcsj8lz7wdetr53q0yacr0kqjm6en5r62zw29mzvv99sa27n9c"
  desktopSigningPublicKey :=
    ⟨[3, 124, 242, 123, 24, 141, 3, 79, 126, 138, 82, 56, 3, 4, 181, 26, 195, 192, 137, 105,
      226, 119, 242, 27, 53, 166, 11, 72, 252, 71, 102, 153, 120], rfl⟩
  desktopSelectionPublicKey :=
    ⟨[2, 94, 203, 228, 209, 166, 51, 10, 68, 200, 247, 239, 149, 29, 75, 241, 101, 230, 198,
      183, 33, 239, 173, 169, 133, 251, 65, 102, 27, 198, 231, 253, 108], rfl⟩
  phoneSigningPublicKey :=
    ⟨[2, 226, 83, 74, 53, 50, 208, 143, 187, 160, 45, 222, 101, 158, 230, 43, 208, 3, 31,
      226, 219, 120, 85, 150, 239, 80, 147, 2, 68, 107, 3, 8, 82], rfl⟩
  offerDigest := Bytes.replicate 32 3
  transcriptFingerprint := Bytes.replicate 32 4

private def sampleScopeDigest : Digest :=
  ⟨[15, 95, 56, 20, 164, 161, 213, 129, 227, 36, 216, 120, 210, 6, 221, 49, 85, 10, 40, 38,
    100, 25, 63, 81, 99, 237, 123, 110, 58, 100, 45, 114], rfl⟩

private def sampleHandleDigest : Digest :=
  ⟨[61, 99, 47, 50, 205, 206, 201, 149, 39, 235, 245, 125, 135, 89, 195, 5, 155, 22, 60, 66,
    34, 22, 178, 60, 105, 7, 128, 36, 106, 53, 230, 51], rfl⟩

/-- A platform that agrees with the real one on the sample record: its recipient holds the
identity key, its keys are points, and the two digests are those of its file name and handle. -/
def samplePlatform : Platform where
  readTree input := (Item.read 4 input).bind fun found => if found.2 = [] then some found.1 else none
  readTree_encode item h := by
    have hread := Item.read_encode h []
    rw [List.append_nil] at hread
    simp [hread]
  identityPublic recipient :=
    if recipient = sampleRecord.recipient then some sampleIdentityKey else none
  identityPublic_length recipient key h := by
    by_cases hr : recipient = sampleRecord.recipient
    · subst hr
      decide +kernel
    · simp [hr] at h
  decodeCompressed key := key.1.head? = some 2 || key.1.head? = some 3
  sha256 input :=
    if input = stateFileInput sampleRecord.desktopId sampleRecord.identityId then sampleScopeDigest
    else if input = handleInput sampleRecord then sampleHandleDigest
    else Bytes.replicate 32 0

end Sample

variable (p : Platform)

/-- `commit`: write a temporary file, then rename it over the state file. -/
def commit (scope : Digest) (next : State) : Io Unit := do
  check (ensure ((encode next).length ≤ maxStateBytes) .capacity)
  let temporary := freshTemporary (← load).files
  recover
    (do
      writeFile temporary []
      recover
        (do
          settle
          writeFile temporary (encode next)
          replaceFile temporary (.live scope)
          settle
          modify (·.updateStore scope fun store => { store with state := next }))
        (fun reason => do
          deleteFile temporary
          raise reason))
    (fun _ => do
      modify (·.updateStore scope fun store => { store with unusable := true })
      raise .storage)

def close (scope : Digest) : Io Unit :=
  modify fun w => { w with opened := w.opened.erase scope }

/-- `acquireLock`: fails while another store of this file is open. -/
def requireUnlocked (scope : Digest) : Io Unit := do
  let w ← load
  check (ensure (w.opened.lookup scope = none) .locked)

def register (scope : Digest) (state : State) : Io Unit :=
  modify fun w => { w with opened := w.opened.insert scope ⟨state, false⟩ }

def createAt (record : StoredPairingRecord) (nowUnix : Long) (capacity : ℕ) : Io Unit := do
  check (validateRecord p record)
  check (validateCapacity capacity)
  check (ensure (0 ≤ nowUnix.1) .malformed)
  let scope := record.file p
  requireUnlocked scope
  let w ← load
  check (ensure (w.files.lookup (.live scope) = none) .alreadyExists)
  let initial : State := ⟨record, nowUnix, nowUnix, capacity, []⟩
  commit scope initial
  register scope initial

/-- The checks `openAt` and `listAt` make on a file's size before decoding it. -/
def readState (content : List Byte) : Except Category State := do
  ensure (1 ≤ content.length ∧ content.length ≤ maxStateBytes) .malformed
  decode p content

def openAt (desktopId identityId : Bytes 16) : Io State := do
  let scope := stateFile p desktopId identityId
  requireUnlocked scope
  let w ← load
  let content ← check (okOr (w.files.lookup (.live scope)) .missing)
  let state ← check (readState p content)
  check (ensure (state.record.desktopId = desktopId ∧ state.record.identityId = identityId)
    .wrongScope)
  register scope state
  return state

def usableStore (w : World) (scope : Digest) : Except Category Store := do
  let store ← okOr (w.opened.lookup scope) .storage
  ensure (store.unusable = false) .storage
  return store

def validateExpiry (expiresAtUnix nowUnix : Long) : Except Category Unit := do
  ensure (0 ≤ nowUnix.1 ∧ nowUnix ≤ expiresAtUnix) .expired
  ensure (expiresAtUnix.1 - nowUnix.1 ≤ 300) .lifetime

def State.liveEntries (s : State) (nowUnix : Long) : List Entry :=
  ExpiringSet.live Entry.expiresAtUnix s.entries nowUnix

/-- The checks of `consumeRequest` and the state it commits. -/
def State.consume (s : State) (request : VerifiedRequest) (nowUnix : Long) :
    Except Category State := do
  ensure (request.desktopId = s.record.desktopId ∧ request.identityId = s.record.identityId)
    .wrongScope
  validateExpiry request.expiresAtUnix nowUnix
  ensure (s.lastSeenUnix ≤ nowUnix) .clockRollback
  ensure (∀ e ∈ s.liveEntries nowUnix, ¬ e.Clashes request.entry) .replay
  ensure ((s.liveEntries nowUnix).length < s.capacity) .capacity
  return { s with
    lastSeenUnix := nowUnix
    entries := (s.liveEntries nowUnix ++ [request.entry]).insertionSort (· ≤ ·) }

def consumeRequest (scope : Digest) (request : VerifiedRequest) (nowUnix : Long) : Io Unit := do
  let store ← check (usableStore (← load) scope)
  let next ← check (store.state.consume request nowUnix)
  commit scope next

/-- The pairing file names with their digest, and whether they carry the deletion suffix. -/
def FileName.pairing : FileName → Option (Digest × Bool)
  | .live scope => some (scope, false)
  | .deleting scope => some (scope, true)
  | .temporary _ => none

def pairingFiles (files : Files) : List ((Digest × Bool) × List Byte) :=
  files.entries.filterMap fun file => file.1.pairing.map fun name => (name, file.2)

def readPairing (file : (Digest × Bool) × List Byte) :
    Except Category (StoredPairingRecord × Bool) := do
  let state ← readState p file.2
  ensure (file.1.1 = state.record.file p) .wrongScope
  return (state.record, file.1.2)

def summary (pairing : StoredPairingRecord × Bool) : Summary :=
  ⟨managementHandle p pairing.1, pairing.2⟩

def listAt (files : Files) (identityId : Bytes 16) : Except Category (List Summary) := do
  let pairings ← (pairingFiles files).mapM (readPairing p)
  let own := pairings.filter fun pairing => pairing.1.identityId = identityId
  return (own.map (summary p)).insertionSort fun a b => a.handle ≤ b.handle

/-- Kotlin's `singleOrNull`. -/
def singleOrNull {α : Type} : List α → Option α
  | [a] => some a
  | _ => none

def findRecordAt (files : Files) (identityId : Bytes 16) (handle : Digest) (deleting : Bool) :
    Except Category StoredPairingRecord := do
  let states ← ((pairingFiles files).filter fun file => file.1.2 = deleting).mapM
    fun file => decode p file.2
  let found := (states.map State.record).filter fun record =>
    record.identityId = identityId && managementHandle p record = handle
  okOr (singleOrNull found) .missing

def revokeState (scope : Digest) : Io Unit := do
  let _ ← check (usableStore (← load) scope)
  recover
    (do
      let w ← load
      check (ensure (w.files.lookup (.deleting scope) = none) .deletionPending)
      replaceFile (.live scope) (.deleting scope)
      settle
      modify (·.updateStore scope fun store => { store with unusable := true })
      deleteFile (.deleting scope)
      settle)
    (fun reason => do
      modify (·.updateStore scope fun store => { store with unusable := true })
      raise reason)

def finishPendingAt (identityId : Bytes 16) (handle : Digest) : Io Unit := do
  let w ← load
  let record ← check (findRecordAt p w.files identityId handle true)
  deleteFile (.deleting (record.file p))
  settle

def revokeAt (identityId : Bytes 16) (handle : Digest) : Io Unit := do
  let summaries ← check (listAt p (← load).files identityId)
  let found ← check (okOr (singleOrNull (summaries.filter (·.handle = handle))) .missing)
  if found.deletionPending then finishPendingAt p identityId handle
  else do
    let record ← check (findRecordAt p (← load).files identityId handle false)
    let state ← openAt p record.desktopId record.identityId
    let scope := record.file p
    recover
      (do
        check (ensure (managementHandle p state.record = handle) .wrongScope)
        revokeState scope)
      (fun reason => do
        close scope
        raise reason)
    close scope

def cleanupPendingAt (identityId : Bytes 16) : Io Unit := do
  let summaries ← check (listAt p (← load).files identityId)
  let pending := summaries.filter (·.deletionPending)
  pending.forM fun item => do
    let record ← check (findRecordAt p (← load).files identityId item.handle true)
    deleteFile (.deleting (record.file p))
  if pending ≠ [] then settle

def revokeAll (identityId : Bytes 16) : Io Unit := do
  let summaries ← check (listAt p (← load).files identityId)
  (summaries.filter fun item => ¬ item.deletionPending).forM fun item =>
    revokeAt p identityId item.handle
  cleanupPendingAt p identityId

/-- Run a call under a fault schedule. A stop of the process releases every lock. -/
def World.execute {α : Type} (w : World) (x : Io α) (faults : List Fault) :
    Except (Stop Category) α × World :=
  let outcome := x w faults
  match outcome.value with
  | .error .crash => (outcome.value, { outcome.store with opened := ∅ })
  | _ => (outcome.value, outcome.store)

end AgePluginPhone.Android
