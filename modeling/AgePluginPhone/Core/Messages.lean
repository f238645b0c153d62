import AgePluginPhone.Core.Recipient
import AgePluginPhone.Core.ReplayCodec
import AgePluginPhone.Library.Reader

/-!
# Protocol messages

The four signed messages, their CBOR payloads and envelopes, and the decoders that accept only
canonical bytes.
-/

namespace AgePluginPhone.Core

open Library

structure PairingOffer where
  desktopId : Id
  desktopLabel : String
  desktopSigningPublicKey : EncodedPublicKey
  desktopSelectionPublicKey : EncodedPublicKey
  nonce : ProtocolNonce
  deriving DecidableEq

structure PairingResponse where
  identityId : Id
  recipient : String
  phoneSigningPublicKey : EncodedPublicKey
  offerDigest : ProtocolDigest
  nonce : ProtocolNonce
  deriving DecidableEq

structure UnwrapRequest where
  requestId : Id
  identityId : Id
  desktopId : Id
  sessionPublicKey : EncodedPublicKey
  recipientStanza : TaggedStanza
  nonce : ProtocolNonce
  expiresAtUnix : U64
  callerHint : Option String
  deriving DecidableEq

structure UnwrapResponse where
  requestId : Id
  requestDigest : ProtocolDigest
  identityId : Id
  desktopId : Id
  phoneSessionPublicKey : EncodedPublicKey
  nonce : ProtocolNonce
  encryptedFileKey : Bytes 32
  deriving DecidableEq

/-- `SignedPairingOffer`, `SignedPairingResponse`, `SignedUnwrapRequest` and
`SignedUnwrapResponse`. -/
structure Signed (Payload : Type) where
  payload : Payload
  signature : Bytes 64
  deriving DecidableEq

abbrev SignedPairingOffer := Signed PairingOffer

abbrev SignedPairingResponse := Signed PairingResponse

abbrev SignedUnwrapRequest := Signed UnwrapRequest

abbrev SignedUnwrapResponse := Signed UnwrapResponse

section Encoding

def protocolVersion : U16 := 2

def algorithmSuite : U16 := 1

/-- Complete signed envelope limit, independent of transport framing. -/
def maxSignedMessageBytes : ℕ := 65536

def offerKind : U16 := 1

def pairingResponseKind : U16 := 2

def requestKind : U16 := 3

def responseKind : U16 := 4

def header (len : ℕ) (kind : U16) : List Byte :=
  encodeArray len ++ (encodeUnsigned protocolVersion ++
    (encodeUnsigned kind ++ encodeUnsigned algorithmSuite))

def encodeOffer (v : PairingOffer) : List Byte :=
  header 8 offerKind ++ (encodeBytes v.desktopId ++ (encodeStr v.desktopLabel ++
    (encodeBytes v.desktopSigningPublicKey ++ (encodeBytes v.desktopSelectionPublicKey ++
      encodeBytes v.nonce))))

def encodePairingResponse (v : PairingResponse) : List Byte :=
  header 8 pairingResponseKind ++ (encodeBytes v.identityId ++ (encodeStr v.recipient ++
    (encodeBytes v.phoneSigningPublicKey ++ (encodeBytes v.offerDigest ++ encodeBytes v.nonce))))

def encodeArgs (args : List String) : List Byte := args.flatMap encodeStr

def encodeStanza (v : TaggedStanza) : List Byte :=
  encodeArray 3 ++ (encodeStr v.tag ++ (encodeArray v.args.length ++ (encodeArgs v.args ++
    encodeBytes v.body)))

def encodeHint : Option String → List Byte
  | some hint => encodeStr hint
  | none => encodeNull

def encodeRequest (v : UnwrapRequest) : List Byte :=
  header 11 requestKind ++ (encodeBytes v.requestId ++ (encodeBytes v.identityId ++
    (encodeBytes v.desktopId ++ (encodeBytes v.sessionPublicKey ++
      (encodeStanza v.recipientStanza ++ (encodeBytes v.nonce ++
        (encodeUnsigned v.expiresAtUnix ++ encodeHint v.callerHint)))))))

/-- The fields before the nonce that a response and its associated data share. -/
def encodeResponseFields (v : UnwrapResponse) : List Byte :=
  encodeBytes v.requestId ++ (encodeBytes v.requestDigest ++ (encodeBytes v.identityId ++
    (encodeBytes v.desktopId ++ (encodeBytes v.phoneSessionPublicKey ++ encodeBytes v.nonce))))

def encodeResponse (v : UnwrapResponse) : List Byte :=
  header 10 responseKind ++ (encodeResponseFields v ++ encodeBytes v.encryptedFileKey)

def responseAad (v : UnwrapResponse) : List Byte :=
  header 9 responseKind ++ encodeResponseFields v

def signed (payload : List Byte) (signature : Bytes 64) : List Byte :=
  encodeArray 2 ++ (encodeBytes payload ++ encodeBytes signature)

end Encoding

section Decoding

variable (m : TextMinicbor)

/-- A decoder method whose failure is a malformed message. -/
def required {α : Type} (reader : List Byte → Option (α × List Byte)) : Decode α :=
  fun input => okOr (reader input) .malformed

def arr (n : ℕ) : Decode Unit := do
  let count ← required m.array
  Decode.check (ensure (count = some n) .malformed)

def hdr (n : ℕ) (kind : U16) : Decode Unit := do
  arr m n
  let version ← required m.u16
  Decode.check (ensure (version = protocolVersion) .unsupportedVersion)
  let found ← required m.u16
  Decode.check (ensure (found = kind) .unexpectedMessageType)
  let suite ← required m.u16
  Decode.check (ensure (suite = algorithmSuite) .unsupportedSuite)

def fixedBytes (n : ℕ) : Decode (Bytes n) := do
  let bytes ← required m.bytes
  if h : bytes.length = n then return ⟨bytes, h⟩ else Decode.check (.error .malformed)

def text (max : ℕ) : Decode String := do
  let s ← required m.str
  Decode.check (ensure ((utf8 s).length ≤ max) .malformed)
  return s

def texts (max : ℕ) : ℕ → Decode (List String)
  | 0 => return []
  | count + 1 => do
      let first ← text m max
      let rest ← texts max count
      return first :: rest

/-- Read a payload to its end, and check that its encoding is the input. -/
def decodeCanonical {α : Type} (decoder : Decode α) (encode : α → List Byte) (b : List Byte) :
    Except ProtocolError α := do
  let (v, rest) ← decoder b
  ensure (rest = []) .malformed
  ensure (b = encode v) .malformed
  return v

def decodeSigned (b : List Byte) : Except ProtocolError (List Byte × Bytes 64) := do
  ensure (b ≠ [] ∧ b.length ≤ maxSignedMessageBytes) .malformed
  let (v, rest) ← (do
    arr m 2
    let payload ← required m.bytes
    let signature ← fixedBytes m 64
    return (payload, signature) : Decode (List Byte × Bytes 64)) b
  ensure (rest = []) .malformed
  return v

def offerFields : Decode PairingOffer := do
  hdr m 8 offerKind
  let desktopId ← fixedBytes m 16
  let desktopLabel ← text m 64
  let desktopSigningPublicKey ← fixedBytes m 33
  let desktopSelectionPublicKey ← fixedBytes m 33
  let nonce ← fixedBytes m 32
  return ⟨desktopId, desktopLabel, desktopSigningPublicKey, desktopSelectionPublicKey, nonce⟩

def decodeOffer (b : List Byte) : Except ProtocolError PairingOffer :=
  decodeCanonical (offerFields m) encodeOffer b

def pairingResponseFields : Decode PairingResponse := do
  hdr m 8 pairingResponseKind
  let identityId ← fixedBytes m 16
  let recipient ← text m 160
  let phoneSigningPublicKey ← fixedBytes m 33
  let offerDigest ← fixedBytes m 32
  let nonce ← fixedBytes m 32
  return ⟨identityId, recipient, phoneSigningPublicKey, offerDigest, nonce⟩

def decodeStanza : Decode TaggedStanza := do
  arr m 3
  let tag ← text m 64
  let argumentCount ← required m.array
  Decode.check (ensure (argumentCount = some 1 ∨ argumentCount = some 2) .malformed)
  let args ← texts m 128 (argumentCount.getD 0)
  let body ← required m.bytes
  Decode.check (ensure (body.length = 32) .malformed)
  return ⟨tag, args, body⟩

def decodeHint : Decode (Option String) := do
  let kind ← fun input => (okOr (m.datatype input) .malformed).map fun kind => (kind, input)
  match kind with
  | .null => do
      required m.null
      return none
  | .string => do
      let hint ← text m 64
      return some hint
  | .other => Decode.check (.error .malformed)

def requestFields : Decode UnwrapRequest := do
  hdr m 11 requestKind
  let requestId ← fixedBytes m 16
  let identityId ← fixedBytes m 16
  let desktopId ← fixedBytes m 16
  let sessionPublicKey ← fixedBytes m 33
  let recipientStanza ← decodeStanza m
  let nonce ← fixedBytes m 32
  let expiresAtUnix ← required m.u64
  let callerHint ← decodeHint m
  return ⟨requestId, identityId, desktopId, sessionPublicKey, recipientStanza, nonce,
    expiresAtUnix, callerHint⟩

def responseFields : Decode UnwrapResponse := do
  hdr m 10 responseKind
  let requestId ← fixedBytes m 16
  let requestDigest ← fixedBytes m 32
  let identityId ← fixedBytes m 16
  let desktopId ← fixedBytes m 16
  let phoneSessionPublicKey ← fixedBytes m 33
  let nonce ← fixedBytes m 32
  let encryptedFileKey ← fixedBytes m 32
  return ⟨requestId, requestDigest, identityId, desktopId, phoneSessionPublicKey, nonce,
    encryptedFileKey⟩

end Decoding

section Validation

variable (C : Crates)

/-- `public`: the strict point parser. -/
def publicKey (bytes : EncodedPublicKey) : Except ProtocolError C.PublicKey := do
  ensure (P256.IsCompressed bytes) .invalidPublicKey
  let k ← okOr (C.fromSec1Bytes bytes) .invalidPublicKey
  ensure (encodePublic C k = bytes) .invalidPublicKey
  return k

/-- `verifying`: a verifying key from any encoding the crate accepts. -/
def verifying (bytes : EncodedPublicKey) : Except ProtocolError C.PublicKey :=
  okOr (C.fromSec1Bytes bytes) .invalidPublicKey

def label (value : String) : Except ProtocolError Unit :=
  ensure ((utf8 value).length ≤ 64) .malformed

def validateRequest (value : UnwrapRequest) : Except ProtocolError Unit := do
  ensure (value.expiresAtUnix.val ≤ maxProtocolTime) .malformed
  let _ ← publicKey C value.sessionPublicKey
  (validateStanza C value.recipientStanza).mapError fun _ => .invalidRecipientStanza
  match value.callerHint with
  | some hint => label hint
  | none => return ()

/-- The identity key inside a recipient. -/
def identityPublic (recipient : String) : Except ProtocolError EncodedPublicKey := do
  let key ← (Recipient.parse C recipient).mapError fun _ => .invalidRecipientStanza
  return encodePublic C key

def validatePairingResponse (value : PairingResponse) : Except ProtocolError Unit := do
  let identity ← identityPublic C value.recipient
  let _ ← verifying C value.phoneSigningPublicKey
  ensure (identity ≠ value.phoneSigningPublicKey) .invalidPublicKey

end Validation

section Messages

variable (C : Crates) (m : TextMinicbor)

def decodePairingResponse (b : List Byte) : Except ProtocolError PairingResponse := do
  let v ← decodeCanonical (pairingResponseFields m) encodePairingResponse b
  validatePairingResponse C v
  return v

def decodeRequest (b : List Byte) : Except ProtocolError UnwrapRequest := do
  let v ← decodeCanonical (requestFields m) encodeRequest b
  validateRequest C v
  return v

def decodeResponse (b : List Byte) : Except ProtocolError UnwrapResponse := do
  let v ← decodeCanonical (responseFields m) encodeResponse b
  let _ ← publicKey C v.phoneSessionPublicKey
  return v

/-- The common body of the four `decode` functions. -/
def decodeMessage {Payload : Type} (decodePayload : List Byte → Except ProtocolError Payload)
    (encodePayload : Payload → List Byte) (b : List Byte) :
    Except ProtocolError (Signed Payload) := do
  let (p, signature) ← decodeSigned m b
  let payload ← decodePayload p
  let value : Signed Payload := ⟨payload, signature⟩
  ensure (b = signed (encodePayload value.payload) value.signature) .malformed
  return value

def SignedPairingOffer.encode (s : SignedPairingOffer) : List Byte :=
  signed (encodeOffer s.payload) s.signature

def SignedPairingOffer.decode (b : List Byte) : Except ProtocolError SignedPairingOffer :=
  decodeMessage m (decodeOffer m) encodeOffer b

def SignedPairingResponse.encode (s : SignedPairingResponse) : List Byte :=
  signed (encodePairingResponse s.payload) s.signature

def SignedPairingResponse.decode (b : List Byte) : Except ProtocolError SignedPairingResponse :=
  decodeMessage m (decodePairingResponse C m) encodePairingResponse b

def SignedUnwrapRequest.encode (s : SignedUnwrapRequest) : List Byte :=
  signed (encodeRequest s.payload) s.signature

def SignedUnwrapRequest.decode (b : List Byte) : Except ProtocolError SignedUnwrapRequest :=
  decodeMessage m (decodeRequest C m) encodeRequest b

def SignedUnwrapResponse.encode (s : SignedUnwrapResponse) : List Byte :=
  signed (encodeResponse s.payload) s.signature

def SignedUnwrapResponse.decode (b : List Byte) : Except ProtocolError SignedUnwrapResponse :=
  decodeMessage m (decodeResponse C m) encodeResponse b

end Messages

end AgePluginPhone.Core
