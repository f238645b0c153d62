import AgePluginPhone.Ios.Recipient
import AgePluginPhone.Ios.StrictCbor

/-!
# Offline envelopes on iOS

The pairing half of `OfflineEnvelopeCrypto`: verification of a desktop's offer and the phone's
signed response to it.
-/

namespace AgePluginPhone.Ios

open Library Cbor StrictCbor

inductive OfflineProtocolError
  | malformed
  | signature
  | expired
  | wrongScope
  deriving DecidableEq

inductive PairingStoreError
  | malformed
  | missing
  | exists
  | replay
  | expired
  | capacity
  | clockRollback
  | storage
  | locked
  | wrongScope
  deriving DecidableEq

/-- What the pairing code can throw. `trap` stands for a Swift arithmetic trap, `cryptoKit` for an
error CryptoKit raises. -/
inductive Failure
  | cbor (error : StrictCborError)
  | protocol (error : OfflineProtocolError)
  | store (error : PairingStoreError)
  | cryptoKit
  | stanza
  | trap
  deriving DecidableEq

def cbor {α : Type} (result : Except StrictCborError α) : Except Failure α :=
  result.mapError Failure.cbor

@[simp] theorem cbor_eq_ok {α : Type} {result : Except StrictCborError α} {a : α} :
    cbor result = .ok a ↔ result = .ok a := by
  cases result <;> simp [cbor, Except.mapError]

inductive IdentityState
  | preparing
  | committed
  | deleting
  deriving DecidableEq

structure IdentityPublicMetadata where
  version : ℕ
  identityId : Bytes 16
  recipient : String
  identityPublicKey : List Byte
  signingPublicKey : List Byte
  state : IdentityState
  deriving DecidableEq

variable (K : CryptoKit)

structure VerifiedPairingOffer where
  desktopId : Bytes 16
  desktopLabel : String
  desktopSigningPublicKey : K.PublicKey
  desktopSelectionPublicKey : K.PublicKey
  nonce : Bytes 32
  encoded : List Byte
  digest : Digest

structure VerifiedPairingResponse where
  identityId : Bytes 16
  recipient : String
  phoneSigningPublicKey : K.PublicKey
  offerDigest : Digest
  nonce : Bytes 32
  encoded : List Byte

section Signatures

def order : List Byte :=
  [0xff, 0xff, 0xff, 0xff, 0x00, 0x00, 0x00, 0x00, 0xff, 0xff, 0xff, 0xff, 0xff, 0xff, 0xff, 0xff,
    0xbc, 0xe6, 0xfa, 0xad, 0xa7, 0x17, 0x9e, 0x84, 0xf3, 0xb9, 0xca, 0xc2, 0xfc, 0x63, 0x25, 0x51]

def halfOrder : List Byte :=
  [0x7f, 0xff, 0xff, 0xff, 0x80, 0x00, 0x00, 0x00, 0x7f, 0xff, 0xff, 0xff, 0xff, 0xff, 0xff, 0xff,
    0xde, 0x73, 0x7d, 0x56, 0xd3, 0x8b, 0xcf, 0x42, 0x79, 0xdc, 0xe5, 0x61, 0x7e, 0x31, 0x92, 0xa8]

def lexicographicCompare (lhs rhs : List Byte) : ℤ :=
  match (lhs.zip rhs).find? fun pair => pair.1 ≠ pair.2 with
  | some (left, right) => if left < right then -1 else 1
  | none => if lhs.length = rhs.length then 0 else if lhs.length < rhs.length then -1 else 1

def isLowS (s : List Byte) : Bool := lexicographicCompare s halfOrder ≤ 0

/-- `subtract`: from the last byte to the first, with the borrow. -/
def subtract (lhs rhs : List Byte) : List Byte :=
  ((lhs.zip rhs).foldr (fun pair (state : List Byte × ℤ) =>
    let value : ℤ := pair.1.val - pair.2.val - state.2
    if value < 0 then (byte (value + 256).toNat :: state.1, 1)
    else (byte value.toNat :: state.1, 0)) ([], 0)).1

def lowSSignature (raw : List Byte) : Except Failure (List Byte) := do
  ensure (raw.length = 64) (.protocol .signature)
  let r := raw.take 32
  let s := raw.drop 32
  return if isLowS s then raw else r ++ subtract order s

def domainInput (domain payload : List Byte) : List Byte := domain ++ [0] ++ payload

def digest (domain payload : List Byte) : Digest := K.sha256 (domainInput domain payload)

def verify (key : K.PublicKey) (domain payload : List Byte) (signature : Bytes 64) :
    Except Failure Unit := do
  ensure (isLowS (signature.1.drop 32)) (.protocol .signature)
  ensure (K.isValidSignature key (domainInput domain payload) signature) (.protocol .signature)

end Signatures

def offerSignatureDomain : List Byte := utf8 "age-plugin-phone/pairing-offer-signature/v2"

def pairingSignatureDomain : List Byte := utf8 "age-plugin-phone/pairing-response-signature/v2"

def offerDigestDomain : List Byte := utf8 "age-plugin-phone/pairing-offer-digest/v2"

def fingerprintDomain : List Byte := utf8 "age-plugin-phone/pairing-fingerprint/v2"

def version : ℕ := 2

def suite : ℕ := 1

/-- `TaggedRecipientCrypto.publicKey` and `signingPublicKey`. -/
def publicKey (compact : Bytes 33) : Except Failure K.PublicKey :=
  okOr (K.fromCompressed compact) .cryptoKit

/-- `ProtocolBounds.decodeEnvelope`. -/
def decodeSigned (encoded : List Byte) : Except Failure (List Byte × Bytes 64) := do
  match ← cbor (decode encoded 65536 128 >>= exactArray 2) with
  | [payload, signature] => return (← cbor (anyBytes payload), ← cbor (exactBytes 64 signature))
  | _ => .error (.cbor .malformed)

def encodeSigned (payload signature : List Byte) : List Byte :=
  (Item.array [.bytes payload, .bytes signature]).encode

def header (values : List Item) (type : ℕ) : Except Failure Unit :=
  match values with
  | foundVersion :: foundType :: foundSuite :: _ => do
      let foundVersion ← cbor (exactUnsigned foundVersion)
      let foundType ← cbor (exactUnsigned foundType)
      let foundSuite ← cbor (exactUnsigned foundSuite)
      ensure (foundVersion.val = version ∧ foundType.val = type ∧ foundSuite.val = suite)
        (.protocol .malformed)
  | _ => .error (.protocol .malformed)

def verifyPairingOffer (encoded : List Byte) : Except Failure (VerifiedPairingOffer K) := do
  let (payload, signature) ← decodeSigned encoded
  let values ← cbor (decodeDefault payload >>= exactArray 8)
  header values 1
  match values with
  | [_, _, _, desktopId, label, signingBytes, selectionBytes, nonce] =>
      let desktopId ← cbor (exactBytes 16 desktopId)
      let label ← cbor (boundedText 64 label)
      let signingBytes ← cbor (exactBytes 33 signingBytes)
      let selectionBytes ← cbor (exactBytes 33 selectionBytes)
      ensure (signingBytes ≠ selectionBytes) (.protocol .malformed)
      let signing ← publicKey K signingBytes
      verify K signing offerSignatureDomain payload signature
      let selection ← publicKey K selectionBytes
      let nonce ← cbor (exactBytes 32 nonce)
      return ⟨desktopId, label, signing, selection, nonce, encoded,
        digest K offerDigestDomain encoded⟩
  | _ => .error (.cbor .malformed)

def pairingResponsePayload (offer : VerifiedPairingOffer K) (identity : IdentityPublicMetadata)
    (nonce : Bytes 32) : Except Failure (List Byte) := do
  ensure (identity.signingPublicKey.length = 33) (.protocol .malformed)
  return (Item.array [.unsigned version, .unsigned 2, .unsigned suite, .bytes identity.identityId,
    .text identity.recipient, .bytes identity.signingPublicKey, .bytes offer.digest,
    .bytes nonce]).encode

/-- `createPairingResponse` with the public key of its signing key, the random nonce it draws and
the raw signatures that key gives. -/
def createPairingResponse (offer : VerifiedPairingOffer K) (identity : IdentityPublicMetadata)
    (signingKey : K.PublicKey) (nonce : Bytes 32) (rawSignature : List Byte → List Byte) :
    Except Failure (VerifiedPairingResponse K) := do
  let signingPublic := compressed K signingKey
  ensure (signingPublic.1 = identity.signingPublicKey) (.protocol .malformed)
  let payload ← pairingResponsePayload K offer identity nonce
  let signature ← lowSSignature (rawSignature (domainInput pairingSignatureDomain payload))
  let phoneSigning ← publicKey K signingPublic
  return ⟨identity.identityId, identity.recipient, phoneSigning, offer.digest, nonce,
    encodeSigned payload signature⟩

def pairingFingerprint (offer : VerifiedPairingOffer K) (response : VerifiedPairingResponse K) :
    Digest :=
  digest K fingerprintDomain (offer.encoded ++ response.encoded)

/-- The metadata `provisionLocked` commits for the two keys it generated. -/
def committedMetadata (identityId : Bytes 16) (identityKey signingKey : K.PublicKey) :
    Option IdentityPublicMetadata :=
  let identityPublic := compressed K identityKey
  let signingPublic := compressed K signingKey
  if identityPublic ≠ signingPublic then
    some ⟨1, identityId, RecipientEncoding.encode K identityKey false, identityPublic.1,
      signingPublic.1, .committed⟩
  else none

section Specifications

variable {K}

theorem publicKey_eq_ok {compact : Bytes 33} {key : K.PublicKey} :
    publicKey K compact = .ok key ↔ K.fromCompressed compact = some key := okOr_eq_ok

theorem publicKey_compressed {key other : K.PublicKey} :
    publicKey K (compressed K key) = .ok other ↔ key = other := by
  rw [publicKey_eq_ok, compressed, K.fromCompressed_compressed, Option.some.injEq]

theorem boundedText_eq_ok {n : ℕ} {item : Item} {text : String}
    (h : boundedText n item = .ok text) : (utf8 text).length ≤ n := by
  cases item with
  | text content =>
      simp only [boundedText] at h
      split_ifs at h with hlen
      obtain rfl := Except.ok.inj h
      exact hlen
  | _ => simp [boundedText] at h

/-- What acceptance of an offer says about the fields the phone stores. -/
theorem verifyPairingOffer_eq_ok {encoded : List Byte} {offer : VerifiedPairingOffer K}
    (h : verifyPairingOffer K encoded = .ok offer) :
    (utf8 offer.desktopLabel).length ≤ 64 ∧
      offer.desktopSigningPublicKey ≠ offer.desktopSelectionPublicKey := by
  simp only [verifyPairingOffer, bind_eq_ok] at h
  obtain ⟨⟨payload, signature⟩, -, values, -, _, -, h⟩ := h
  split at h
  · simp only [bind_eq_ok, ensure_eq_ok, exists_const, pure_eq_ok, Except.ok.injEq, cbor_eq_ok,
      publicKey_eq_ok] at h
    obtain ⟨desktopId, -, label, hlabel, signingBytes, -, selectionBytes, -, hne, signing,
      hsigning, _, -, selection, hselection, nonce, -, rfl⟩ := h
    refine ⟨boundedText_eq_ok hlabel, fun heq => hne ?_⟩
    have hkey : signing = selection := heq
    subst hkey
    rw [← K.compressed_fromCompressed _ _ hsigning, K.compressed_fromCompressed _ _ hselection]
  · simp at h

theorem createPairingResponse_eq_ok {offer : VerifiedPairingOffer K}
    {identity : IdentityPublicMetadata} {signingKey : K.PublicKey} {nonce : Bytes 32}
    {rawSignature : List Byte → List Byte} {response : VerifiedPairingResponse K}
    (h : createPairingResponse K offer identity signingKey nonce rawSignature = .ok response) :
    response.identityId = identity.identityId ∧ response.recipient = identity.recipient ∧
      response.phoneSigningPublicKey = signingKey ∧ response.offerDigest = offer.digest := by
  simp only [createPairingResponse, bind_eq_ok, ensure_eq_ok, exists_const, pure_eq_ok,
    Except.ok.injEq, publicKey_compressed] at h
  obtain ⟨-, payload, -, signature, -, key, rfl, rfl⟩ := h
  exact ⟨rfl, rfl, rfl, rfl⟩

end Specifications

end AgePluginPhone.Ios
