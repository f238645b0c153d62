import AgePluginPhone.Android.PairingState
import AgePluginPhone.Android.ProtocolBounds
import AgePluginPhone.Android.RecipientText
import AgePluginPhone.Android.SignatureEncoding

/-!
# The offline envelope on Android

`OfflineEnvelopeCrypto`: verification of a desktop's offer and requests, the phone's signed pairing
response, and the sealing of a file key. Random nonces and generated keys are arguments.
-/

namespace AgePluginPhone.Android.OfflineEnvelope

open Library P256 Cbor

inductive Failure
  | protocolException
  | stanza (failure : TaggedRecipientCrypto.Failure)
  | provider
  deriving DecidableEq

/-- What the envelope takes from the platform besides the keys of recipients: Jackson's CBOR tree
reader, whose writer emits the shortest form, ECDSA and ECDH. -/
structure Provider extends TaggedRecipientCrypto.Jca where
  /-- `none` also for trees with a node of a kind the protocol never uses. -/
  readTree : List Byte → Option Item
  readTree_encode : ∀ item, item.Bounded 4 → readTree item.encode = some item
  lowercase : String → String
  lowercase_ascii : TaggedRecipientCrypto.LowercaseAscii lowercase
  PrivateKey : Type
  /-- `SHA256withECDSA` of a message and a DER signature; `false` also where it throws. -/
  verifies : PublicKey → List Byte → List Byte → Bool
  /-- The DER signature of a message. -/
  signature : PrivateKey → List Byte → List Byte
  /-- `generateSecret`, as long as a field element. -/
  generateSecret : PrivateKey → PublicKey → Bytes 32
  /-- ChaCha20-Poly1305 with key, nonce and associated data. -/
  encrypt : Bytes 32 → Bytes 12 → List Byte → List Byte → List Byte

variable (J : Provider)

structure PairingOffer where
  desktopId : Bytes 16
  desktopLabel : String
  desktopSigningPublicKey : J.PublicKey
  desktopSelectionPublicKey : J.PublicKey
  nonce : Bytes 32

structure VerifiedPairingOffer where
  offer : PairingOffer J
  encoded : List Byte
  digest : Digest

structure PairingResponse where
  identityId : Bytes 16
  recipient : String
  phoneSigningPublicKey : J.PublicKey
  offerDigest : Digest
  nonce : Bytes 32

structure VerifiedPairingResponse where
  response : PairingResponse J
  encoded : List Byte

structure Request where
  requestId : Bytes 16
  identityId : Bytes 16
  desktopId : Bytes 16
  sessionPublicKey : J.PublicKey
  stanza : TaggedRecipientCrypto.Stanza
  nonce : Bytes 32
  expiresAtUnix : Long
  callerHint : Option String

structure VerifiedRequest where
  request : Request J
  signedBytes : List Byte
  digest : Digest

structure RequestScope where
  desktopId : Bytes 16
  identityId : Bytes 16

structure Response where
  requestId : Bytes 16
  requestDigest : Digest
  identityId : Bytes 16
  desktopId : Bytes 16
  phoneSessionPublicKey : J.PublicKey
  nonce : Bytes 32
  encryptedFileKey : List Byte

/-- The public half of a phone identity, as far as a pairing response uses it. -/
structure PhoneIdentityPublic where
  identityId : Bytes 16
  recipient : String
  signingPublicKey : List Byte

section Constants

def version : ℕ := 2

def suite : ℕ := 1

def offerType : ℕ := 1

def pairingResponseType : ℕ := 2

def requestType : ℕ := 3

def responseType : ℕ := 4

def offerSignatureDomain : List Byte := utf8 "age-plugin-phone/pairing-offer-signature/v2"

def pairingSignatureDomain : List Byte := utf8 "age-plugin-phone/pairing-response-signature/v2"

def requestSignatureDomain : List Byte := utf8 "age-plugin-phone/unwrap-request-signature/v2"

def responseSignatureDomain : List Byte := utf8 "age-plugin-phone/unwrap-response-signature/v2"

def offerDigestDomain : List Byte := utf8 "age-plugin-phone/pairing-offer-digest/v2"

def fingerprintDomain : List Byte := utf8 "age-plugin-phone/pairing-fingerprint/v2"

def requestDigestDomain : List Byte := utf8 "age-plugin-phone/request-digest/v2"

def sessionInfo : List Byte := utf8 "age-plugin-phone/session-response/p256/v2"

def zeroNonce : Bytes 12 := Bytes.replicate 12 0

end Constants

section Trees

/-- `validateEncoded` throws only protocol exceptions. -/
def strictArray (encoded : List Byte) (size : ℕ) : Except Failure (List Item) := do
  (ProtocolBounds.validateEncoded encoded).mapError fun _ => .protocolException
  match J.readTree encoded with
  | some (.array items) =>
      ensure (items.length = size ∧ (Item.array items).encode = encoded) .protocolException
      return items
  | some _ => .error .protocolException
  | none => .error .provider

def isExactInteger : Item → ℕ → Bool
  | .unsigned n, expected => n = expected
  | _, _ => false

def header (node : List Item) (type : ℕ) : Except Failure Unit :=
  ensure (isExactInteger (node.getD 0 .null) version ∧ isExactInteger (node.getD 1 .null) type ∧
    isExactInteger (node.getD 2 .null) suite) .protocolException

/-- `bytes(node, null)`. -/
def anyBytes : Item → Except Failure (List Byte)
  | .bytes value => .ok value
  | _ => .error .protocolException

def bytes (size : ℕ) (node : Item) : Except Failure (Bytes size) := do
  let value ← anyBytes node
  okOr (if h : value.length = size then some ⟨value, h⟩ else none) .protocolException

def text (max : ℕ) : Item → Except Failure String
  | .text value => if (utf8 value).length ≤ max then .ok value else .error .protocolException
  | _ => .error .protocolException

theorem long_of_lt {n : ℕ} (h : n < 9223372036854775808) :
    -9223372036854775808 ≤ (n : ℤ) ∧ (n : ℤ) < 9223372036854775808 := by
  omega

def unsignedLong : Item → Except Failure Long
  | .unsigned n =>
      if h : n < 9223372036854775808 then .ok ⟨n, long_of_lt h⟩ else .error .protocolException
  | _ => .error .protocolException

def encodeSigned (payload signature : List Byte) : List Byte :=
  (Item.array [.bytes payload, .bytes signature]).encode

def decodeSigned (encoded : List Byte) : Except Failure (List Byte × Bytes 64) := do
  match ← strictArray J encoded 2 with
  | [payload, signature] => return (← anyBytes payload, ← bytes 64 signature)
  | _ => .error .protocolException

end Trees

section Signatures

def domainInput (domain payload : List Byte) : List Byte := domain ++ [0] ++ payload

def digest (domain payload : List Byte) : Digest := J.sha256 (domainInput domain payload)

def sign (key : J.PrivateKey) (domain payload : List Byte) : Except Failure (List Byte) :=
  (SignatureEncoding.derToCompact (J.signature key (domainInput domain payload))).mapError
    fun _ => .protocolException

def verify (key : J.PublicKey) (domain payload compact : List Byte) : Except Failure Unit :=
  (SignatureEncoding.verify order (J.verifies key (domainInput domain payload)) compact).mapError
    fun _ => .protocolException

def decodeCompressed (encoded : List Byte) : Except Failure J.PublicKey :=
  (TaggedRecipientCrypto.decodeCompressed J.toJca encoded).mapError .stanza

def encodeCompressed (key : J.PublicKey) : Except Failure (List Byte) :=
  (TaggedRecipientCrypto.encodeCompressed J.toJca key).mapError .stanza

end Signatures

section Pairing

def decodePairingOfferPayload (encoded : List Byte) : Except Failure (PairingOffer J) := do
  let n ← strictArray J encoded 8
  header n offerType
  match n with
  | [_, _, _, desktopId, label, signing, selection, nonce] =>
      let desktopId ← bytes 16 desktopId
      let label ← text 64 label
      let signing ← decodeCompressed J (← bytes 33 signing)
      let selection ← decodeCompressed J (← bytes 33 selection)
      let nonce ← bytes 32 nonce
      return ⟨desktopId, label, signing, selection, nonce⟩
  | _ => .error .protocolException

def verifyPairingOffer (encoded : List Byte) : Except Failure (VerifiedPairingOffer J) := do
  let signed ← decodeSigned J encoded
  let offer ← decodePairingOfferPayload J signed.1
  ensure ((← encodeCompressed J offer.desktopSigningPublicKey) ≠
    (← encodeCompressed J offer.desktopSelectionPublicKey)) .protocolException
  verify J offer.desktopSigningPublicKey offerSignatureDomain signed.1 signed.2
  return ⟨offer, encoded, digest J offerDigestDomain encoded⟩

/-- The parser of the payload catches `InvalidStanzaException` alone. -/
def recipientFailure : TaggedRecipientCrypto.Failure → Failure
  | .invalidStanza => .protocolException
  | failure => .stanza failure

def decodePairingResponsePayload (encoded : List Byte) : Except Failure (PairingResponse J) := do
  let n ← strictArray J encoded 8
  header n pairingResponseType
  match n with
  | [_, _, _, identityId, recipient, signing, offerDigest, nonce] =>
      let recipient ← text 160 recipient
      let _ ← (TaggedRecipientCrypto.decodeRecipient J.toJca J.lowercase recipient).mapError
        recipientFailure
      let identityId ← bytes 16 identityId
      let signing ← decodeCompressed J (← bytes 33 signing)
      let offerDigest ← bytes 32 offerDigest
      let nonce ← bytes 32 nonce
      return ⟨identityId, recipient, signing, offerDigest, nonce⟩
  | _ => .error .protocolException

def encodePairingResponsePayload (value : PairingResponse J) : Except Failure (List Byte) := do
  let signing ← encodeCompressed J value.phoneSigningPublicKey
  return (Item.array [.unsigned version, .unsigned pairingResponseType, .unsigned suite,
    .bytes value.identityId, .text value.recipient, .bytes signing, .bytes value.offerDigest,
    .bytes value.nonce]).encode

def verifyPairingResponse (encoded : List Byte) (offer : VerifiedPairingOffer J) :
    Except Failure (VerifiedPairingResponse J) := do
  let signed ← decodeSigned J encoded
  let response ← decodePairingResponsePayload J signed.1
  ensure (response.offerDigest = offer.digest) .protocolException
  let identity ← (TaggedRecipientCrypto.decodeRecipient J.toJca J.lowercase
    response.recipient).mapError .stanza
  let identityPublic ← encodeCompressed J identity
  let desktopSigning ← encodeCompressed J offer.offer.desktopSigningPublicKey
  let desktopSelection ← encodeCompressed J offer.offer.desktopSelectionPublicKey
  let phoneSigning ← encodeCompressed J response.phoneSigningPublicKey
  ensure (identityPublic ≠ phoneSigning ∧ identityPublic ≠ desktopSigning ∧
    identityPublic ≠ desktopSelection ∧ phoneSigning ≠ desktopSigning ∧
    phoneSigning ≠ desktopSelection) .protocolException
  verify J response.phoneSigningPublicKey pairingSignatureDomain signed.1 signed.2
  return ⟨response, encoded⟩

/-- `createPairingResponse` with the nonce it draws. -/
def createPairingResponse (offer : VerifiedPairingOffer J) (identity : PhoneIdentityPublic)
    (phoneSigningPrivateKey : J.PrivateKey) (nonce : Bytes 32) :
    Except Failure (VerifiedPairingResponse J) := do
  let phoneSigning ← decodeCompressed J identity.signingPublicKey
  ensure ((← encodeCompressed J phoneSigning) = identity.signingPublicKey) .protocolException
  let response : PairingResponse J :=
    ⟨identity.identityId, identity.recipient, phoneSigning, offer.digest, nonce⟩
  let payload ← encodePairingResponsePayload J response
  let signature ← sign J phoneSigningPrivateKey pairingSignatureDomain payload
  verifyPairingResponse J (encodeSigned payload signature) offer

def pairingFingerprint (offer : VerifiedPairingOffer J) (response : VerifiedPairingResponse J) :
    Digest :=
  digest J fingerprintDomain (offer.encoded ++ response.encoded)

end Pairing

section Requests

/-- `ProtocolBounds.validateTime`. -/
def validateTime (expires now : Long) : Except Failure Unit :=
  ensure (0 ≤ now.1 ∧ now ≤ expires ∧ expires.1 - now.1 ≤ 300) .protocolException

/-- The stanza node: the size of a node that is no array is zero. -/
def decodeStanza (node : Item) : Except Failure TaggedRecipientCrypto.Stanza :=
  match node with
  | .array [tag, .array arguments, body] => do
      ensure (1 ≤ arguments.length ∧ arguments.length ≤ 2) .protocolException
      let arguments ← arguments.mapM (text 128)
      let tag ← text 64 tag
      let body ← bytes 32 body
      return ⟨tag, arguments, body.1⟩
  | _ => .error .protocolException

def decodeHint (node : Item) : Except Failure (Option String) :=
  match node with
  | .null => .ok none
  | node => do return some (← text 64 node)

def decodeRequestPayload (encoded : List Byte) : Except Failure (Request J) := do
  let n ← strictArray J encoded 11
  header n requestType
  match n with
  | [_, _, _, requestId, identityId, desktopId, session, stanza, nonce, expires, hint] =>
      let stanza ← decodeStanza stanza
      let _ ← (TaggedRecipientCrypto.parse J.toJca stanza).mapError Failure.stanza
      let hint ← decodeHint hint
      let requestId ← bytes 16 requestId
      let identityId ← bytes 16 identityId
      let desktopId ← bytes 16 desktopId
      let session ← decodeCompressed J (← bytes 33 session)
      let nonce ← bytes 32 nonce
      let expires ← unsignedLong expires
      return ⟨requestId, identityId, desktopId, session, stanza, nonce, expires, hint⟩
  | _ => .error .protocolException

def verifyRequest (encoded : List Byte) (expectedDesktopId expectedIdentityId : Bytes 16)
    (desktopSigningPublic : J.PublicKey) (nowUnix : Long) :
    Except Failure (VerifiedRequest J) := do
  let signed ← decodeSigned J encoded
  let request ← decodeRequestPayload J signed.1
  ensure (request.desktopId = expectedDesktopId) .protocolException
  ensure (request.identityId = expectedIdentityId) .protocolException
  validateTime request.expiresAtUnix nowUnix
  verify J desktopSigningPublic requestSignatureDomain signed.1 signed.2
  return ⟨request, encoded, digest J requestDigestDomain encoded⟩

def requestScope (encoded : List Byte) : Except Failure RequestScope := do
  let signed ← decodeSigned J encoded
  let request ← decodeRequestPayload J signed.1
  return ⟨request.desktopId, request.identityId⟩

end Requests

section Responses

/-- The fields of a response before the file key. -/
def responseFields (v : Response J) : Except Failure (List Item) := do
  let session ← encodeCompressed J v.phoneSessionPublicKey
  return [.unsigned version, .unsigned responseType, .unsigned suite, .bytes v.requestId,
    .bytes v.requestDigest, .bytes v.identityId, .bytes v.desktopId, .bytes session,
    .bytes v.nonce]

def encodeResponsePayload (v : Response J) : Except Failure (List Byte) := do
  let fields ← responseFields J v
  return (Item.array (fields ++ [.bytes v.encryptedFileKey])).encode

def encodeResponseAad (v : Response J) : Except Failure (List Byte) := do
  let fields ← responseFields J v
  return (Item.array fields).encode

def hkdf (secret salt : List Byte) : Bytes 32 :=
  let prk := J.hmacSha256 salt secret
  J.hmacSha256 prk (sessionInfo ++ [1])

def encrypt (secret : List Byte) (digest : Digest) (nonce : Bytes 32) (aad value : List Byte) :
    List Byte :=
  J.encrypt (hkdf J secret (digest.1 ++ nonce.1)) zeroNonce aad value

/-- `sealResponse` with the session key pair and the nonce it generates. -/
def sealResponse (request : VerifiedRequest J) (fileKey : List Byte)
    (phoneSigningPrivate : J.PrivateKey) (phoneSigningPublic : J.PublicKey)
    (phoneSessionPrivate : J.PrivateKey) (phoneSessionPublic : J.PublicKey) (nonce : Bytes 32) :
    Except Failure (Response J × List Byte) := do
  ensure (fileKey.length = 16) .protocolException
  let response : Response J := ⟨request.request.requestId, request.digest,
    request.request.identityId, request.request.desktopId, phoneSessionPublic, nonce,
    List.replicate 32 0⟩
  let secret := J.generateSecret phoneSessionPrivate request.request.sessionPublicKey
  let aad ← encodeResponseAad J response
  let encrypted := encrypt J secret request.digest nonce aad fileKey
  let completed : Response J := { response with encryptedFileKey := encrypted }
  let payload ← encodeResponsePayload J completed
  let encoded := encodeSigned payload (← sign J phoneSigningPrivate responseSignatureDomain payload)
  let signed ← decodeSigned J encoded
  verify J phoneSigningPublic responseSignatureDomain payload signed.2
  return (completed, encoded)

end Responses

end AgePluginPhone.Android.OfflineEnvelope
