import AgePluginPhone.Core.Protocol
import AgePluginPhone.Library.ExpiringSet

/-!
# Replay state

The in-memory replay set of one pairing side: bounded, sorted, and purged of expired entries
under a clock high-water mark. A consumption returns the successor state; callers discard it
on failure, as `FileReplayGuard` does with its clone.
-/

namespace AgePluginPhone.Core

open Library

def maxConfiguredEntries : ℕ := 16384

inductive ReplayRole
  | phoneRequests
  | desktopResponses
  deriving DecidableEq, Repr

structure ReplayScope where
  role : ReplayRole
  desktopId : Id
  identityId : Id
  deriving DecidableEq

inductive ReplayEntry
  | request (requestId : Id) (nonce : ProtocolNonce) (expiresAtUnix : U64)
  | response (digest : ProtocolDigest) (expiresAtUnix : U64)
  deriving DecidableEq

namespace ReplayEntry

def expiresAtUnix : ReplayEntry → U64
  | request _ _ expires => expires
  | response _ expires => expires

def role : ReplayEntry → ReplayRole
  | request .. => .phoneRequests
  | response .. => .desktopResponses

@[simp] theorem role_request (requestId : Id) (nonce : ProtocolNonce) (expires : U64) :
    (request requestId nonce expires).role = .phoneRequests := rfl

@[simp] theorem role_response (digest : ProtocolDigest) (expires : U64) :
    (response digest expires).role = .desktopResponses := rfl

/-- The derived variant-then-field order. -/
def sortKey : ReplayEntry → ℕ ×ₗ List Byte ×ₗ List Byte ×ₗ ℕ
  | request requestId nonce expires => toLex (0, toLex (requestId.1, toLex (nonce.1, expires.1)))
  | response digest expires => toLex (1, toLex (digest.1, toLex ([], expires.1)))

theorem sortKey_injective : Function.Injective sortKey := by
  intro a b h
  cases a <;> cases b <;> simp only [sortKey, EmbeddingLike.apply_eq_iff_eq, Prod.mk.injEq] at h
  · obtain ⟨-, hid, hnonce, hexp⟩ := h
    rw [Subtype.ext hid, Subtype.ext hnonce, Fin.ext hexp]
  · simp at h
  · simp at h
  · obtain ⟨-, hdigest, -, hexp⟩ := h
    rw [Subtype.ext hdigest, Fin.ext hexp]

instance : LinearOrder ReplayEntry := LinearOrder.lift' sortKey sortKey_injective

/-- The duplicate test of `consume_request` and `consume_response` against one stored entry. -/
def duplicates : ReplayEntry → ReplayEntry → Bool
  | request requestId nonce _, request existingId existingNonce _ =>
      existingId = requestId || existingNonce = nonce
  | response digest _, response existing _ => existing = digest
  | _, _ => false

end ReplayEntry

structure ReplayState where
  scope : ReplayScope
  lastSeenUnix : U64
  entries : List ReplayEntry
  deriving DecidableEq

namespace ReplayState

def new (scope : ReplayScope) (nowUnix : U64) : ReplayState := ⟨scope, nowUnix, []⟩

/-- `prepare`: scope, role and clock checks, then the purge of expired entries. -/
def prepare (s : ReplayState) (scope : ReplayScope) (role : ReplayRole) (nowUnix : U64) :
    Except ProtocolError ReplayState := do
  ensure (s.scope = scope ∧ s.scope.role = role) .replayState
  ensure (s.lastSeenUnix ≤ nowUnix) .clockRollback
  return { s with entries := s.entries.filter fun entry => nowUnix ≤ entry.expiresAtUnix }

def reserve (s : ReplayState) (capacity : ℕ) : Except ProtocolError Unit :=
  ensure (s.entries.length < capacity) .replayCapacity

/-- `finish`, with `sort_unstable` as insertion sort: the order is total on distinct entries. -/
def finish (s : ReplayState) (nowUnix : U64) : ReplayState :=
  { s with lastSeenUnix := nowUnix, entries := s.entries.insertionSort (· ≤ ·) }

/-- The common body of the two consumptions, for an entry of the given role. -/
def consume (s : ReplayState) (scope : ReplayScope) (entry : ReplayEntry) (nowUnix : U64)
    (capacity : ℕ) : Except ProtocolError ReplayState := do
  validateRequestTime entry.expiresAtUnix nowUnix
  let s ← s.prepare scope entry.role nowUnix
  ensure (¬ s.entries.any entry.duplicates) .replay
  s.reserve capacity
  return { s with entries := s.entries ++ [entry] }.finish nowUnix

def consumeRequest (s : ReplayState) (scope : ReplayScope) (requestId : Id)
    (nonce : ProtocolNonce) (expiresAtUnix nowUnix : U64) (capacity : ℕ) :
    Except ProtocolError ReplayState :=
  s.consume scope (.request requestId nonce expiresAtUnix) nowUnix capacity

def consumeResponse (s : ReplayState) (scope : ReplayScope) (digest : ProtocolDigest)
    (expiresAtUnix nowUnix : U64) (capacity : ℕ) : Except ProtocolError ReplayState :=
  s.consume scope (.response digest expiresAtUnix) nowUnix capacity

def liveEntries (s : ReplayState) (nowUnix : U64) : List ReplayEntry :=
  ExpiringSet.live ReplayEntry.expiresAtUnix s.entries nowUnix

/-- Everything a successful consumption checked, and the successor state. -/
theorem consume_eq_ok {s t : ReplayState} {scope : ReplayScope} {entry : ReplayEntry}
    {nowUnix : U64} {capacity : ℕ} :
    s.consume scope entry nowUnix capacity = .ok t ↔
      (entry.expiresAtUnix.val ≤ maxProtocolTime ∧ nowUnix ≤ entry.expiresAtUnix ∧
        entry.expiresAtUnix.val ≤ nowUnix.val + maxRequestLifetimeSecs) ∧
      (s.scope = scope ∧ s.scope.role = entry.role) ∧ s.lastSeenUnix ≤ nowUnix ∧
      (∀ existing ∈ s.liveEntries nowUnix, entry.duplicates existing = false) ∧
      (s.liveEntries nowUnix).length < capacity ∧
      t = ⟨s.scope, nowUnix, (s.liveEntries nowUnix ++ [entry]).insertionSort (· ≤ ·)⟩ := by
  simp only [consume, prepare, reserve, finish, bind_eq_ok, ensure_eq_ok, pure_eq_ok,
    validateRequestTime_eq_ok, exists_const, Except.ok.injEq, liveEntries,
    ExpiringSet.live]
  constructor
  · rintro ⟨htime, u, ⟨hscope, hclock, rfl⟩, hdup, hroom, rfl⟩
    simp only [List.any_eq_true, not_exists, not_and, Bool.not_eq_true] at hdup
    exact ⟨htime, hscope, hclock, hdup, hroom, rfl⟩
  · rintro ⟨htime, hscope, hclock, hdup, hroom, rfl⟩
    refine ⟨htime, _, ⟨hscope, hclock, rfl⟩, ?_, hroom, rfl⟩
    simpa only [List.any_eq_true, not_exists, not_and, Bool.not_eq_true] using hdup

end ReplayState

end AgePluginPhone.Core
