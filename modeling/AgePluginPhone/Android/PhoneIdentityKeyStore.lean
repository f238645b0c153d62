import AgePluginPhone.Library.Cbor
import AgePluginPhone.Library.CborItem
import AgePluginPhone.Library.Fallible
import AgePluginPhone.Library.OwnedItems
import AgePluginPhone.Library.Storage

/-!
# Android identity key store

`PhoneIdentityKeyStore` over its state file and the two aliases of each identity in the Android
key store, and the plugin commands that use it. The state file stands for the value it encodes.
Every read of the file system or the key store is a step that may fail.
-/

namespace AgePluginPhone.Android.PhoneIdentityKeyStore

open Library StorageM

abbrev Id := Bytes 16

abbrev PublicKey := Bytes 33

inductive Role
  | identity
  | signing
  deriving DecidableEq

/-- `TaggedRecipientCrypto.encodeRecipient` on compressed keys. -/
structure RecipientCodec where
  encodeRecipient : PublicKey → String
  size_le : ∀ key, (utf8 (encodeRecipient key)).length ≤ 160

/-- A key pair behind an alias: its compressed public key, and whether `inspect` finds the
security level, purpose and authentication it was generated for. -/
structure KeyEntry where
  publicKey : PublicKey
  acceptable : Bool
  deriving DecidableEq

structure PhoneIdentityPublic where
  identityId : Id
  recipient : String
  identityPublicKey : PublicKey
  signingPublicKey : PublicKey
  deriving DecidableEq

inductive StoredState
  | preparing (identityId : Id)
  | committed (metadata : PhoneIdentityPublic)
  | deleting (metadata : PhoneIdentityPublic)
  deriving DecidableEq

def StoredState.identityId : StoredState → Id
  | preparing identityId => identityId
  | committed metadata | deleting metadata => metadata.identityId

/-- The state file and the entries under the store's aliases. -/
structure World where
  state : Option StoredState
  keys : Items Role Id KeyEntry

inductive Category
  | aliasCollision
  | alreadyExists
  | generationFailed
  | incomplete
  | malformed
  | metadataMismatch
  | missing
  | storage
  | wrongKeyRole
  | wrongSecurityLevel
  | deletionPending
  /-- A `PairingStateException`. -/
  | pairing
  /-- An exception of the platform that is not a `KeyStoreException`. -/
  | platform
  deriving DecidableEq

abbrev Io := StorageM World Category

def World.empty : World := ⟨none, ∅⟩

/-- A storage step that changes neither the state file nor a key: reads, writes of the temporary
file, permission changes and directory syncs. -/
def settle (reason : Category) : Io Unit := effect (fun w => some w) reason

def writeState (next : StoredState) : Io Unit :=
  effect (fun w => some { w with state := some next }) .storage

def removeState : Io Unit := effect (fun w => some { w with state := none }) .storage

def generateKey (role : Role) (identityId : Id) (key : KeyEntry) : Io Unit :=
  effect (fun w => some { w with keys := w.keys.insert (role, identityId) key }) .platform

def deleteEntry (role : Role) (identityId : Id) : Io Unit :=
  effect (fun w => some { w with keys := w.keys.erase (role, identityId) }) .platform

variable (C : RecipientCodec)

def validatePublic (metadata : PhoneIdentityPublic) : Except Category Unit := do
  ensure (metadata.identityPublicKey ≠ metadata.signingPublicKey) .malformed
  ensure (C.encodeRecipient metadata.identityPublicKey = metadata.recipient ∧
    (utf8 metadata.recipient).length ≤ 160) .malformed

def validateState : Option StoredState → Except Category Unit
  | some (.committed metadata) | some (.deleting metadata) => validatePublic C metadata
  | _ => .ok ()

/-- `readState`, with the test that the file exists. -/
def readState : Io (Option StoredState) := do
  settle .storage
  let w ← load
  check (validateState C w.state)
  return w.state

/-- `commit`: write a temporary file, rename it over the state file, sync the directory. -/
def commit (next : StoredState) : Io Unit := do
  settle .storage
  writeState next
  settle .storage

def commitCommitted (metadata : PhoneIdentityPublic) : Io Unit := do
  check (validatePublic C metadata)
  commit (.committed metadata)

def commitDeleting (metadata : PhoneIdentityPublic) : Io Unit := do
  check (validatePublic C metadata)
  commit (.deleting metadata)

def deleteState : Io Unit := do
  removeState
  settle .platform

def containsAlias (role : Role) (identityId : Id) : Io Bool := do
  settle .platform
  let w ← load
  return (w.keys.lookup (role, identityId)).isSome

def cleanupAlias (identityId : Id) (role : Role) : Io Unit := do
  if ← containsAlias role identityId then deleteEntry role identityId

def cleanupAliases (identityId : Id) : Io Unit := do
  cleanupAlias identityId .identity
  cleanupAlias identityId .signing

def getKey (role : Role) (identityId : Id) : Io KeyEntry := do
  settle .platform
  let w ← load
  check (okOr (w.keys.lookup (role, identityId)) .missing)

def publicMetadata (identityId : Id) : Io PhoneIdentityPublic := do
  let identity ← getKey .identity identityId
  let signing ← getKey .signing identityId
  check (ensure (identity.publicKey ≠ signing.publicKey) .wrongKeyRole)
  return ⟨identityId, C.encodeRecipient identity.publicKey, identity.publicKey, signing.publicKey⟩

/-- `inspect` and `isAcceptable`. -/
def inspect (identityId : Id) : Io Unit := do
  let identity ← getKey .identity identityId
  let signing ← getKey .signing identityId
  check (ensure (identity.acceptable ∧ signing.acceptable) .wrongSecurityLevel)

/-- What `provision` does with a state file it finds. -/
def clearPreparing : Io Unit := do
  match ← readState C with
  | none => pure ()
  | some (.committed _) => raise .alreadyExists
  | some (.deleting _) => raise .deletionPending
  | some (.preparing existing) =>
      cleanupAliases existing
      deleteState

/-- `provision` up to the commit of the preparing state. -/
def prepare (identityId : Id) : Io Unit := do
  settle .storage
  clearPreparing C
  let identityUsed ← containsAlias .identity identityId
  let signingUsed ← containsAlias .signing identityId
  check (ensure (identityUsed = false ∧ signingUsed = false) .aliasCollision)
  commit (.preparing identityId)

/-- The `try` block of `provision`, with the keys the hardware generates in it. -/
def generate (identityId : Id) (identityKey signingKey : KeyEntry) : Io PhoneIdentityPublic := do
  generateKey .identity identityId identityKey
  generateKey .signing identityId signingKey
  let metadata ← publicMetadata C identityId
  inspect identityId
  commitCommitted C metadata
  return metadata

/-- `runCatching`. -/
def runCatching (x : Io Unit) : Io Unit := recover x fun _ => pure ()

/-- The `catch` block of `provision`. -/
def rollback (identityId : Id) (reason : Category) : Io PhoneIdentityPublic := do
  runCatching (cleanupAliases identityId)
  runCatching deleteState
  raise (if reason = .platform then .generationFailed else reason)

/-- `provision`, with the identity id it draws. -/
def provision (identityId : Id) (identityKey signingKey : KeyEntry) : Io PhoneIdentityPublic := do
  prepare C identityId
  recover (generate C identityId identityKey signingKey) (rollback identityId)

def openIdentity : Io PhoneIdentityPublic := do
  settle .storage
  match ← readState C with
  | none => raise .missing
  | some (.deleting _) => raise .deletionPending
  | some (.preparing _) => raise .incomplete
  | some (.committed metadata) =>
      let live ← publicMetadata C metadata.identityId
      check (ensure (metadata = live) .metadataMismatch)
      inspect metadata.identityId
      return live

/-- `deleteIdentity` up to the commit of the deleting state. -/
def beginDeletion : Io PhoneIdentityPublic := do
  settle .storage
  match ← readState C with
  | none => raise .missing
  | some (.preparing _) => raise .incomplete
  | some (.deleting metadata) => return metadata
  | some (.committed metadata) =>
      commitDeleting C metadata
      return metadata

/-- The `try` block of `deleteIdentity`. `PairingStateStore.revokeAll` is one step. -/
def finishDeletion (identityId : Id) : Io Unit := do
  settle .pairing
  cleanupAliases identityId
  let identityLeft ← containsAlias .identity identityId
  let signingLeft ← containsAlias .signing identityId
  check (ensure (identityLeft = false ∧ signingLeft = false) .storage)
  deleteState

def deleteIdentity : Io Unit := do
  let metadata ← beginDeletion C
  recover (finishDeletion metadata.identityId) fun
    | .pairing | .platform => raise .storage
    | reason => raise reason

inductive Status
  | ready
  | notConfigured
  | deletionPending
  | unavailable
  deriving DecidableEq

/-- `identityStatusReport`. `PairingStateStore.list` is one step. -/
def identityStatus : Io Status :=
  recover
    (do
      let _ ← openIdentity C
      settle .pairing
      return .ready)
    fun
      | .missing => pure .notConfigured
      | .deletionPending => pure .deletionPending
      | .platform => raise .platform
      | _ => pure .unavailable

/-- The plugin's `deleteIdentity`, and whether it reports completion. -/
def deleteCommand (confirmed : Bool) : Io Bool := do
  let status ← identityStatus C
  if status = .ready ∨ status = .deletionPending then
    if confirmed then
      recover
        (do
          deleteIdentity C
          return true)
        fun _ => pure false
    else return false
  else return false

end AgePluginPhone.Android.PhoneIdentityKeyStore
