import AgePluginPhone.Ios.PairingStateStore

/-!
# Unwrap requests on iOS

Verification of a desktop's signed request, and its consumption by `PairingStateStore`.
-/

namespace AgePluginPhone.Ios

open Library Cbor StrictCbor StorageM

/-- Seconds as the platform's clocks give them. -/
abbrev TimeInterval := ℚ

namespace ProtocolBounds

def maximumTime : ℕ := 9223372036854775807

def validateTimestamp (value : U64) : Except StrictCborError Unit :=
  ensure (value.val ≤ maximumTime) .limit

/-- `unixTime`; a reading that is not finite is `none`. -/
def unixTime (seconds : Option TimeInterval) : Except StrictCborError U64 := do
  let seconds ← okOr seconds .limit
  ensure (0 ≤ seconds) .limit
  let value ← okOr (if h : ⌊seconds⌋.toNat < 18446744073709551616 then some ⟨⌊seconds⌋.toNat, h⟩
    else none) .limit
  validateTimestamp value
  return value

def validateTime (expires now : U64) : Except StrictCborError Unit := do
  validateTimestamp expires
  validateTimestamp now
  ensure (now ≤ expires ∧ expires.val - now.val ≤ 300) .limit

end ProtocolBounds

structure RecipientStanza where
  tag : String
  arguments : List String
  body : Bytes 32

variable (K : CryptoKit)

structure VerifiedUnwrapRequest where
  requestId : Bytes 16
  identityId : Bytes 16
  desktopId : Bytes 16
  sessionPublicKey : K.PublicKey
  stanza : RecipientStanza
  nonce : Bytes 32
  expiresAtUnix : U64
  callerHint : Option String
  signedBytes : List Byte
  digest : Digest

namespace TaggedRecipientCrypto

def stanzaTag : String := "phone-p256-v1"

def stanzaTagV2 : String := "phone-p256-v2"

def base64Alphabet : List Char :=
  "ABCDEFGHIJKLMNOPQRSTUVWXYZabcdefghijklmnopqrstuvwxyz0123456789+/".toList

/-- Unpadded base64 whose unused bits are zero. -/
def decodeCanonicalBase64 (value : String) : Option (List Byte) := do
  let words ← value.toList.mapM fun c => base64Alphabet.findIdx? (· = c)
  let (output, accumulator, bits) :=
    words.foldl (RecipientEncoding.convertStep 6 8) ([], 0, 0)
  if bits < 6 ∧ accumulator % 2 ^ bits = 0 then some (output.map byte) else none

/-- `P256.KeyAgreement.PublicKey(x963Representation:)` of an uncompressed point. -/
def fromX963 (bytes : Bytes 65) : Option K.PublicKey := do
  let key ← K.fromCompressed (compressX963 bytes)
  if K.x963Representation key = bytes then some key else none

/-- `P256Tag.parse`. -/
def parseTagged (stanza : RecipientStanza) : Except Failure K.PublicKey :=
  match stanza.arguments with
  | [tag, encapsulated] => do
      let tag ← okOr (decodeCanonicalBase64 tag) .stanza
      ensure (tag.length = 4) .stanza
      let bytes ← okOr (decodeCanonicalBase64 encapsulated) .stanza
      let point ← okOr (if h : bytes.length = 65 then some (⟨bytes, h⟩ : Bytes 65) else none) .stanza
      ensure (point.1.head? = some 4) .stanza
      okOr (fromX963 K point) .cryptoKit
  | _ => .error .stanza

/-- The ephemeral key of a `phone-p256` stanza. -/
def parseEphemeral (argument : String) : Except Failure K.PublicKey := do
  let bytes ← okOr (decodeCanonicalBase64 argument) .stanza
  let compact ← okOr (if h : bytes.length = 33 then some (⟨bytes, h⟩ : Bytes 33) else none) .stanza
  publicKey K compact

/-- `parse`, by its ephemeral key. -/
def parse (stanza : RecipientStanza) : Except Failure K.PublicKey :=
  if stanza.tag = "p256tag" then parseTagged K stanza
  else
    match stanza.arguments with
    | [ephemeral] =>
        if stanza.tag = stanzaTag then parseEphemeral K ephemeral else .error .stanza
    | [ephemeral, selection] => do
        ensure (stanza.tag = stanzaTagV2) .stanza
        let _ ← okOr ((decodeCanonicalBase64 ephemeral).filter fun bytes => bytes.length = 33) .stanza
        let _ ← okOr ((decodeCanonicalBase64 selection).filter fun bytes => bytes.length = 32) .stanza
        parseEphemeral K ephemeral
    | _ => .error .stanza

end TaggedRecipientCrypto

def requestSignatureDomain : List Byte := utf8 "age-plugin-phone/unwrap-request-signature/v2"

def requestDigestDomain : List Byte := utf8 "age-plugin-phone/request-digest/v2"

structure RequestScope where
  desktopId : Bytes 16
  identityId : Bytes 16

/-- The payload fields of a request, and its signature. -/
def requestValues (encoded : List Byte) :
    Except Failure (List Item × List Byte × Bytes 64) := do
  let (payload, signature) ← decodeSigned encoded
  let values ← cbor (decodeDefault payload >>= exactArray 11)
  header values 3
  return (values, payload, signature)

def requestScope (encoded : List Byte) : Except Failure RequestScope := do
  let (values, _, _) ← requestValues encoded
  match values with
  | [_, _, _, _, identityId, desktopId, _, _, _, expires, _] =>
      cbor (exactUnsigned expires >>= ProtocolBounds.validateTimestamp)
      return ⟨← cbor (exactBytes 16 desktopId), ← cbor (exactBytes 16 identityId)⟩
  | _ => .error (.cbor .malformed)

def stanzaOf (value : Item) : Except Failure RecipientStanza := do
  match ← cbor (exactArray 3 value) with
  | [tag, .array arguments, body] =>
      ensure (1 ≤ arguments.length ∧ arguments.length ≤ 2) (.protocol .malformed)
      let tag ← cbor (boundedText 64 tag)
      let arguments ← arguments.mapM fun argument => cbor (boundedText 128 argument)
      let body ← cbor (exactBytes 32 body)
      return ⟨tag, arguments, body⟩
  | _ => .error (.protocol .malformed)

def callerHintOf (value : Item) : Except Failure (Option String) :=
  match value with
  | .null => .ok none
  | value => do return some (← cbor (boundedText 64 value))

def verifyRequest (encoded : List Byte) (expectedDesktopId expectedIdentityId : Bytes 16)
    (desktopSigningKey : K.PublicKey) (nowUnix : U64) :
    Except Failure (VerifiedUnwrapRequest K) := do
  let (values, payload, signature) ← requestValues encoded
  match values with
  | [_, _, _, requestId, identityId, desktopId, session, stanza, nonce, expires, hint] =>
      let requestId ← cbor (exactBytes 16 requestId)
      let identityId ← cbor (exactBytes 16 identityId)
      let desktopId ← cbor (exactBytes 16 desktopId)
      ensure (identityId = expectedIdentityId ∧ desktopId = expectedDesktopId)
        (.protocol .wrongScope)
      let stanza ← stanzaOf stanza
      let _ ← TaggedRecipientCrypto.parse K stanza
      let expires ← cbor (exactUnsigned expires)
      (ProtocolBounds.validateTime expires nowUnix).mapError fun _ => .protocol .expired
      let hint ← callerHintOf hint
      verify K desktopSigningKey requestSignatureDomain payload signature
      let session ← cbor (exactBytes 33 session) >>= publicKey K
      let nonce ← cbor (exactBytes 32 nonce)
      return ⟨requestId, identityId, desktopId, session, stanza, nonce, expires, hint, encoded,
        digest K requestDigestDomain encoded⟩
  | _ => .error (.cbor .malformed)

/-- The state after a request is consumed. -/
def PairingState.consume (state : PairingState) (request : VerifiedUnwrapRequest K)
    (nowUnix : U64) : Except Failure PairingState := do
  ensure (state.lastSeen ≤ nowUnix) (.store .clockRollback)
  (ProtocolBounds.validateTime request.expiresAtUnix nowUnix).mapError fun _ => .store .expired
  let entries := state.entries.filter fun e => nowUnix ≤ e.expiresAt
  ensure (∀ e ∈ entries, e.requestId ≠ request.requestId ∧ e.nonce ≠ request.nonce) (.store .replay)
  ensure (entries.length < state.capacity) (.store .capacity)
  let entries := entries ++ [⟨request.requestId, request.nonce, request.expiresAtUnix⟩]
  return { state with lastSeen := nowUnix, entries := entries.insertionSort (· ≤ ·) }

def verifyAndConsume (encoded : List Byte) (nowUnix : U64) : Io (VerifiedUnwrapRequest K) := do
  let scope ← check (requestScope encoded)
  let url := stateURL K scope.desktopId scope.identityId
  settle
  let content ← check (okOr ((← load).lookup url) (.store .storage))
  let state ← check (decode K content)
  let signing ← check (publicKey K state.record.desktopSigningPublicKey)
  let request ← check (verifyRequest K encoded state.record.desktopId state.record.identityId
    signing nowUnix)
  let next ← check (state.consume K request nowUnix)
  durableReplace (encode next) url false
  return request

end AgePluginPhone.Ios
