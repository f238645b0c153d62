import AgePluginPhone.Ios.OfflineEnvelope
import AgePluginPhone.Library.OwnedItems
import AgePluginPhone.Library.Storage

/-!
# iOS identity key store

`IdentityKeyStore` over its metadata file and the two keychain items of each identity, and the
plugin command that deletes it. The file stands for the metadata it encodes, and a keychain item
for the Secure Enclave key it refers to, by its public key.
-/

namespace AgePluginPhone.Ios.IdentityKeyStore

open Library StorageM

abbrev Id := Bytes 16

inductive Role
  | identity
  | signing
  deriving DecidableEq

inductive IdentityStoreError
  | unsupported
  | alreadyExists
  | missing
  | deletionPending
  | malformed
  | storage
  | wrongKeyRole
  deriving DecidableEq

variable (K : CryptoKit)

/-- The metadata file and the keychain items under the store's accounts. -/
structure World where
  metadata : Option IdentityPublicMetadata
  keychain : Items Role Id K.PublicKey

abbrev Io := StorageM (World K) IdentityStoreError

def World.empty : World K := ⟨none, ∅⟩

variable {K}

/-- A storage step that changes neither the metadata nor a key. -/
def settle : Io K Unit := effect (fun w => some w) .storage

def installMetadata (next : IdentityPublicMetadata) (createOnly : Bool) : Io K Unit :=
  effect (fun w => if createOnly = true ∧ w.metadata ≠ none then none
    else some { w with metadata := some next }) .storage

def removeItem : Io K Unit := effect (fun w => some { w with metadata := none }) .storage

def readMetadata : Io K IdentityPublicMetadata := do
  let w ← load
  let metadata ← check (okOr w.metadata .missing)
  settle
  return metadata

/-- `writeMetadata`: write a temporary file, rename it into place, set attributes and sync. -/
def writeMetadata (next : IdentityPublicMetadata) (createOnly : Bool) : Io K Unit := do
  let w ← load
  check (ensure (createOnly = true → w.metadata = none) .alreadyExists)
  settle
  installMetadata next createOnly
  settle

/-- `SecItemAdd` refuses an account that has an item. -/
def storeKey (role : Role) (identityId : Id) (key : K.PublicKey) : Io K Unit :=
  effect (fun w => if w.keychain.lookup (role, identityId) = none
    then some { w with keychain := w.keychain.insert (role, identityId) key } else none) .storage

def readKey (role : Role) (identityId : Id) : Io K K.PublicKey := do
  settle
  let w ← load
  check (okOr (w.keychain.lookup (role, identityId)) .missing)

def deleteKey (role : Role) (identityId : Id) : Io K Unit :=
  effect (fun w => some { w with keychain := w.keychain.erase (role, identityId) }) .storage

/-- `try?`. -/
def attempt (x : Io K Unit) : Io K Unit := recover x fun _ => pure ()

def openLocked : Io K IdentityPublicMetadata := do
  let metadata ← readMetadata
  check (ensure (metadata.state ≠ .deleting) .deletionPending)
  check (ensure (metadata.version = 1 ∧ metadata.state = .committed ∧
    metadata.identityPublicKey.length = 33 ∧ metadata.signingPublicKey.length = 33 ∧
    metadata.identityPublicKey ≠ metadata.signingPublicKey) .malformed)
  let identity ← readKey .identity metadata.identityId
  let signing ← readKey .signing metadata.identityId
  check (ensure ((compressed K identity).1 = metadata.identityPublicKey ∧
    (compressed K signing).1 = metadata.signingPublicKey ∧
    RecipientEncoding.encode K identity false = metadata.recipient) .malformed)
  return metadata

def preparingMetadata (identityId : Id) : IdentityPublicMetadata :=
  ⟨1, identityId, "", [], [], .preparing⟩

/-- What `provisionLocked` does with a metadata file it finds. -/
def clearPreparing : Io K Unit := do
  let w ← load
  if w.metadata = none then return ()
  else
    let existing ← readMetadata
    match existing.state with
    | .preparing =>
        attempt (deleteKey .identity existing.identityId)
        attempt (deleteKey .signing existing.identityId)
        removeItem
    | .deleting => raise .deletionPending
    | .committed => raise .alreadyExists

/-- `provisionLocked` up to the write of the preparing metadata. -/
def prepare (identityId : Id) : Io K Unit := do
  clearPreparing
  writeMetadata (preparingMetadata identityId) true

/-- The `do` block of `provisionLocked`, with the keys the Secure Enclave generates in it. -/
def generate (identityId : Id) (identityKey signingKey : K.PublicKey) :
    Io K IdentityPublicMetadata := do
  settle
  let committed ← check (okOr (committedMetadata K identityId identityKey signingKey) .wrongKeyRole)
  storeKey .identity identityId identityKey
  storeKey .signing identityId signingKey
  writeMetadata committed false
  return committed

/-- The `catch` block of `provisionLocked`. -/
def rollback (identityId : Id) (reason : IdentityStoreError) : Io K IdentityPublicMetadata := do
  attempt (deleteKey .identity identityId)
  attempt (deleteKey .signing identityId)
  attempt removeItem
  raise reason

/-- `provision`, with the identity id it draws. -/
def provision (identityId : Id) (identityKey signingKey : K.PublicKey) :
    Io K IdentityPublicMetadata := do
  prepare identityId
  recover (generate identityId identityKey signingKey) (rollback identityId)

def beginDeletion : Io K IdentityPublicMetadata := do
  let current ← readMetadata
  match current.state with
  | .deleting => return current
  | .preparing => raise .malformed
  | .committed =>
      let deleting := { current with state := .deleting }
      writeMetadata deleting false
      return deleting

def finishDeletion (metadata : IdentityPublicMetadata) : Io K Unit := do
  deleteKey .identity metadata.identityId
  deleteKey .signing metadata.identityId
  let w ← load
  if w.metadata = none then return ()
  else
    removeItem
    settle

/-- The plugin's `deleteIdentity`, and whether it reports completion. `revokeAll` of the pairings
is one step. -/
def deleteCommand (confirmed : Bool) : Io K Bool := do
  let available ← recover
    (do
      let _ ← openLocked
      return true)
    fun reason => pure (decide (reason = .deletionPending))
  if available = true ∧ confirmed = true then
    recover
      (do
        let metadata ← beginDeletion
        settle
        finishDeletion metadata
        return true)
      fun _ => pure false
  else return false

end AgePluginPhone.Ios.IdentityKeyStore
