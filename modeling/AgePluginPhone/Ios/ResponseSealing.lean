import AgePluginPhone.Ios.LowSSignature
import AgePluginPhone.Ios.StanzaOpening

/-!
# Response sealing on iOS

`responsePayload` and `sealResponse` of `OfflineEnvelopeCrypto`. The session key that
`sealResponse` generates, its random nonce and what the Secure Enclave signs are arguments.
-/

namespace AgePluginPhone.Ios

open Library Cbor

variable (K : CryptoKit)

/-- The ciphers with `ChaChaPoly.seal`: the ciphertext and the tag. -/
structure SealingCiphers extends StanzaOpening.Ciphers where
  sealBox : Bytes 32 → Bytes 12 → List Byte → List Byte → List Byte × List Byte

variable (P : SealingCiphers)

/-- A `P256.KeyAgreement.PrivateKey`. -/
structure SessionKey where
  publicKey : K.PublicKey
  sharedSecretFromKeyAgreement : K.PublicKey → Except Failure (List Byte)

def responseSignatureDomain : List Byte := utf8 "age-plugin-phone/unwrap-response-signature/v2"

def responseSessionInfo : List Byte := utf8 "age-plugin-phone/session-response/p256/v2"

/-- The fields of a response before the file key. -/
def responseFields (request : VerifiedUnwrapRequest K) (sessionPublic : Bytes 33)
    (responseNonce : Bytes 32) : List Item :=
  [.unsigned version, .unsigned 4, .unsigned suite, .bytes request.requestId,
    .bytes request.digest, .bytes request.identityId, .bytes request.desktopId,
    .bytes sessionPublic, .bytes responseNonce]

def responsePayload (request : VerifiedUnwrapRequest K) (fileKey : List Byte)
    (session : SessionKey K) (responseNonce : Bytes 32) : Except Failure (List Byte) := do
  ensure (fileKey.length = 16) (.protocol .malformed)
  let fields := responseFields K request (compressed K session.publicKey) responseNonce
  let aad := (Item.array fields).encode
  let secret ← session.sharedSecretFromKeyAgreement request.sessionPublicKey
  let key := hkdf P.hmacSha256 (request.digest.1 ++ responseNonce.1) secret responseSessionInfo
  let box := P.sealBox key (Bytes.replicate 12 0) fileKey aad
  return (Item.array (fields ++ [.bytes (box.1 ++ box.2)])).encode

def sealResponse (request : VerifiedUnwrapRequest K) (fileKey : List Byte) (session : SessionKey K)
    (responseNonce : Bytes 32) (rawSignature : List Byte → Except Failure (List Byte)) :
    Except Failure (List Byte) := do
  ensure (fileKey.length = 16) (.protocol .malformed)
  let payload ← responsePayload K P request fileKey session responseNonce
  let raw ← rawSignature (domainInput responseSignatureDomain payload)
  let signature ← lowSSignatureChecked raw
  return encodeSigned payload signature

end AgePluginPhone.Ios
