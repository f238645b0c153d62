import AgePluginPhone.Core.ReplayInvariant
import AgePluginPhone.Library.Machine

/-!
# Reference replay store

A replay state that is consumed from while its store is open: what the phones' stores of consumed
requests are compared with.
-/

namespace AgePluginPhone.Core

open Library

/-- Seconds that every clock of the protocol can hold. -/
abbrev UnixTime := {n : ℕ // n < 9223372036854775808}

def UnixTime.toU64 (t : UnixTime) : U64 := ⟨t.1, t.2.trans (by decide)⟩

/-- A call on the store of one pairing. -/
inductive ReplayCall
  | consume (desktopId identityId requestId : Id) (nonce : ProtocolNonce)
      (expiresAtUnix nowUnix : UnixTime)
  | close
  | «open»
  deriving DecidableEq

structure ReplayReference where
  state : ReplayState
  isOpen : Bool

namespace ReplayReference

/-- Whether a call is accepted, and what follows it. -/
def call (capacity : ℕ) (r : ReplayReference) : ReplayCall → Bool × ReplayReference
  | .consume desktopId identityId requestId nonce expires now =>
      if r.isOpen then
        match r.state.consumeRequest ⟨.phoneRequests, desktopId, identityId⟩ requestId nonce
            expires.toU64 now.toU64 capacity with
        | .ok next => (true, { r with state := next })
        | .error _ => (false, r)
      else (false, r)
  | .close => (true, { r with isOpen := false })
  | .open => if r.isOpen then (false, r) else (true, { r with isOpen := true })

def step (capacity : ℕ) (r : ReplayReference) (call : ReplayCall) : Option ReplayReference :=
  some (r.call capacity call).2

def accepted (capacity : ℕ) (r : ReplayReference) (call : ReplayCall) : Option Bool :=
  some (r.call capacity call).1

end ReplayReference

end AgePluginPhone.Core
