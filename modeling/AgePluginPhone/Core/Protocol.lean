import AgePluginPhone.Library.Cbor
import AgePluginPhone.Library.Fallible

/-!
# Protocol vocabulary

Identifiers, errors and the request time window shared by the desktop and the phones.
-/

namespace AgePluginPhone.Core

open Library

abbrev Id := Bytes 16

abbrev ProtocolNonce := Bytes 32

abbrev ProtocolDigest := Bytes 32

abbrev EncodedPublicKey := Bytes 33

inductive ProtocolError
  | malformed
  | unsupportedVersion
  | unsupportedSuite
  | unexpectedMessageType
  | invalidPublicKey
  | invalidSignature
  | wrongDesktop
  | wrongIdentity
  | expired
  | lifetimeTooLong
  | replay
  | clockRollback
  | replayCapacity
  | replayState
  | invalidRecipientStanza
  | bindingMismatch
  | decryption
  | keyOperation
  deriving DecidableEq, Repr

def maxRequestLifetimeSecs : ℕ := 300

/-- Portable timestamp range shared with signed 64-bit mobile clocks, `i64::MAX`. -/
def maxProtocolTime : ℕ := 2 ^ 63 - 1

def validateRequestTime (expires now : U64) : Except ProtocolError Unit := do
  ensure (expires.val ≤ maxProtocolTime ∧ now.val ≤ maxProtocolTime) .malformed
  ensure (now ≤ expires) .expired
  ensure (expires.val - now.val ≤ maxRequestLifetimeSecs) .lifetimeTooLong

theorem validateRequestTime_eq_ok {expires now : U64} {u : Unit} :
    validateRequestTime expires now = .ok u ↔
      expires.val ≤ maxProtocolTime ∧ now ≤ expires ∧
        expires.val ≤ now.val + maxRequestLifetimeSecs := by
  simp only [validateRequestTime, bind_eq_ok, ensure_eq_ok, exists_const, Fin.le_def]
  omega

end AgePluginPhone.Core
