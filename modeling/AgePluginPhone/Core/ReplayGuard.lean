import AgePluginPhone.Core.ReplayInvariant
import AgePluginPhone.Library.Machine

/-!
# File replay guard

`FileReplayGuard` over one state file: clone, consume, replace the file atomically, and poison
the guard when the replacement reports a failure. Runs interleave consumptions with failing
commits and with restarts that decode the last durably written bytes.
-/

namespace AgePluginPhone.Core

open Library

structure FileReplayGuard where
  state : ReplayState
  capacity : ℕ
  poisoned : Bool
  deriving DecidableEq

/-- What `atomic_replace` left behind: a failure may be reported before or after the rename. -/
inductive Replacement
  | done
  | failedUnchanged
  | failedReplaced
  deriving DecidableEq

/-- The state file's durable bytes and the guard held by the process, if any. -/
structure GuardWorld where
  stored : List Byte
  guard : Option FileReplayGuard
  deriving DecidableEq

namespace FileReplayGuard

/-- `create` on a free path, with the bytes it persists. -/
def create (scope : ReplayScope) (capacity : ℕ) (nowUnix : U64) :
    Except ProtocolError GuardWorld := do
  validateCapacity capacity
  let state := ReplayState.new scope nowUnix
  return ⟨state.encode, some ⟨state, capacity, false⟩⟩

def «open» (m : Minicbor) (stored : List Byte) (expectedScope : ReplayScope) (capacity : ℕ) :
    Except ProtocolError FileReplayGuard := do
  validateCapacity capacity
  ensure (stored ≠ [] ∧ stored.length ≤ maxStateBytes) .replayState
  let state ← ReplayState.decode m stored capacity
  ensure (state.scope = expectedScope) .replayState
  return ⟨state, capacity, false⟩

def commit (g : FileReplayGuard) (stored : List Byte) (next : ReplayState) :
    Replacement → Except ProtocolError Unit × GuardWorld
  | .done => (.ok (), ⟨next.encode, some { g with state := next }⟩)
  | .failedUnchanged => (.error .replayState, ⟨stored, some { g with poisoned := true }⟩)
  | .failedReplaced => (.error .replayState, ⟨next.encode, some { g with poisoned := true }⟩)

/-- The common body of the two trait methods: consume on a clone, then commit it. -/
def consumeWith (g : FileReplayGuard) (stored : List Byte)
    (consume : ReplayState → Except ProtocolError ReplayState) (replacement : Replacement) :
    Except ProtocolError Unit × GuardWorld :=
  if g.poisoned then (.error .replayState, ⟨stored, some g⟩)
  else
    match consume g.state with
    | .error failure => (.error failure, ⟨stored, some g⟩)
    | .ok next => g.commit stored next replacement

def consumeRequest (g : FileReplayGuard) (stored : List Byte) (desktopId identityId requestId : Id)
    (nonce : ProtocolNonce) (expiresAtUnix nowUnix : U64) :
    Replacement → Except ProtocolError Unit × GuardWorld :=
  g.consumeWith stored fun s => s.consumeRequest ⟨.phoneRequests, desktopId, identityId⟩
    requestId nonce expiresAtUnix nowUnix g.capacity

def consumeResponse (g : FileReplayGuard) (stored : List Byte) (desktopId identityId : Id)
    (digest : ProtocolDigest) (expiresAtUnix nowUnix : U64) :
    Replacement → Except ProtocolError Unit × GuardWorld :=
  g.consumeWith stored fun s => s.consumeResponse ⟨.desktopResponses, desktopId, identityId⟩
    digest expiresAtUnix nowUnix g.capacity

end FileReplayGuard

inductive GuardEvent
  | consumeRequest (desktopId identityId requestId : Id) (nonce : ProtocolNonce)
      (expiresAtUnix nowUnix : U64) (replacement : Replacement)
  | consumeResponse (desktopId identityId : Id) (digest : ProtocolDigest)
      (expiresAtUnix nowUnix : U64) (replacement : Replacement)
  | reopen (expectedScope : ReplayScope) (capacity : ℕ)

namespace GuardWorld

variable (m : Minicbor)

/-- One call on the held guard; `none` when the process holds no guard to call. -/
def call (w : GuardWorld) : GuardEvent → Option (Except ProtocolError Unit × GuardWorld)
  | .consumeRequest desktopId identityId requestId nonce expires now replacement =>
      w.guard.map fun g =>
        g.consumeRequest w.stored desktopId identityId requestId nonce expires now replacement
  | .consumeResponse desktopId identityId digest expires now replacement =>
      w.guard.map fun g =>
        g.consumeResponse w.stored desktopId identityId digest expires now replacement
  | .reopen expectedScope capacity =>
      match FileReplayGuard.open m w.stored expectedScope capacity with
      | .ok g => some (.ok (), ⟨w.stored, some g⟩)
      | .error failure => some (.error failure, ⟨w.stored, none⟩)

def step (w : GuardWorld) (e : GuardEvent) : Option GuardWorld := (w.call m e).map Prod.snd

def outcome (w : GuardWorld) (e : GuardEvent) : Option (Except ProtocolError Unit) :=
  (w.call m e).map Prod.fst

/-- The token presented by a consumption event. -/
def presented : GuardEvent → Option ReplayEntry
  | .consumeRequest _ _ requestId nonce expires _ _ => some (.request requestId nonce expires)
  | .consumeResponse _ _ digest expires _ _ => some (.response digest expires)
  | .reopen .. => none

/-- The token consumed by an event, when its call succeeds. -/
def consumed (w : GuardWorld) (e : GuardEvent) : Option ReplayEntry :=
  if w.outcome m e = some (.ok ()) then presented e else none

def consumedTokens : GuardWorld → List GuardEvent → List ReplayEntry :=
  Machine.emitted (step m) (consumed m)

def outcomes : GuardWorld → List GuardEvent → List (Except ProtocolError Unit) :=
  Machine.emitted (step m) (outcome m)

/-- Everything one call can do to the file and the guard. -/
inductive CallEffect (w : GuardWorld) (e : GuardEvent) :
    Except ProtocolError Unit → GuardWorld → Prop
  | refused {failure} : CallEffect w e (.error failure) w
  | committed {g scope entry now next} : w.guard = some g → g.poisoned = false →
      presented e = some entry → g.state.consume scope entry now g.capacity = .ok next →
      CallEffect w e (.ok ()) ⟨next.encode, some { g with state := next }⟩
  | failed {g scope entry now next stored failure} : w.guard = some g → g.poisoned = false →
      g.state.consume scope entry now g.capacity = .ok next →
      stored = w.stored ∨ stored = next.encode →
      CallEffect w e (.error failure) ⟨stored, some { g with poisoned := true }⟩
  | reopened {state capacity} : presented e = none → 1 ≤ capacity → capacity ≤ maxConfiguredEntries →
      ReplayState.decode m w.stored capacity = .ok state →
      CallEffect w e (.ok ()) ⟨w.stored, some ⟨state, capacity, false⟩⟩
  | closed {failure} : CallEffect w e (.error failure) ⟨w.stored, none⟩

private theorem consumeWith_effect {w w' : GuardWorld} {e : GuardEvent} {g : FileReplayGuard}
    {scope : ReplayScope} {entry : ReplayEntry} {now : U64} {replacement : Replacement}
    {result : Except ProtocolError Unit} (hg : w.guard = some g) (he : presented e = some entry)
    (h : g.consumeWith w.stored (fun s => s.consume scope entry now g.capacity) replacement =
      (result, w')) : CallEffect m w e result w' := by
  have hw : ⟨w.stored, some g⟩ = w := by rw [← hg]
  unfold FileReplayGuard.consumeWith at h
  split_ifs at h with hp
  · obtain ⟨rfl, rfl⟩ := Prod.mk.inj h
    rw [hw]
    exact .refused
  · cases hnext : g.state.consume scope entry now g.capacity with
    | error failure =>
        simp only [hnext] at h
        obtain ⟨rfl, rfl⟩ := Prod.mk.inj h
        rw [hw]
        exact .refused
    | ok next =>
        simp only [hnext] at h
        have hlive : g.poisoned = false := by simpa using hp
        cases replacement <;> obtain ⟨rfl, rfl⟩ := Prod.mk.inj h
        · exact .committed hg hlive he hnext
        · exact .failed hg hlive hnext (Or.inl rfl)
        · exact .failed hg hlive hnext (Or.inr rfl)

theorem open_eq_ok {stored : List Byte} {scope : ReplayScope} {capacity : ℕ}
    {g : FileReplayGuard} :
    FileReplayGuard.open m stored scope capacity = .ok g ↔
      (1 ≤ capacity ∧ capacity ≤ maxConfiguredEntries) ∧
      (stored ≠ [] ∧ stored.length ≤ maxStateBytes) ∧
      ∃ state, ReplayState.decode m stored capacity = .ok state ∧ state.scope = scope ∧
        g = ⟨state, capacity, false⟩ := by
  simp only [FileReplayGuard.open, validateCapacity, bind_eq_ok, ensure_eq_ok, exists_const,
    pure_eq_ok, Except.ok.injEq, eq_comm (b := g)]

theorem call_effect {w w' : GuardWorld} {e : GuardEvent} {result : Except ProtocolError Unit}
    (h : w.call m e = some (result, w')) : CallEffect m w e result w' := by
  cases e with
  | consumeRequest desktopId identityId requestId nonce expires now replacement =>
      obtain ⟨g, hg, hcall⟩ := Option.map_eq_some_iff.mp h
      exact consumeWith_effect m hg rfl hcall
  | consumeResponse desktopId identityId digest expires now replacement =>
      obtain ⟨g, hg, hcall⟩ := Option.map_eq_some_iff.mp h
      exact consumeWith_effect m hg rfl hcall
  | reopen scope capacity =>
      simp only [call] at h
      cases hopen : FileReplayGuard.open m w.stored scope capacity with
      | error failure =>
          simp only [hopen, Option.some.injEq, Prod.mk.injEq] at h
          obtain ⟨rfl, rfl⟩ := h
          exact .closed
      | ok g =>
          simp only [hopen, Option.some.injEq, Prod.mk.injEq] at h
          obtain ⟨rfl, rfl⟩ := h
          obtain ⟨⟨hlow, hhigh⟩, -, state, hdecode, -, rfl⟩ := (open_eq_ok m).mp hopen
          exact .reopened rfl hlow hhigh hdecode

/-- The durable bytes encode the given well-formed state. -/
def Stores (w : GuardWorld) (s : ReplayState) : Prop :=
  s.WellFormed ∧ s.entries.length ≤ maxConfiguredEntries ∧ w.stored = s.encode

/-- The file always holds a complete state, and a held guard a well-formed one. -/
structure Consistent (w : GuardWorld) : Prop where
  file : ∃ s, w.Stores s
  guard : ∀ g, w.guard = some g → g.capacity ≤ maxConfiguredEntries ∧ g.state.WellFormed

/-- Neither a restart nor the live guard can consume the token again. -/
def Spent (w : GuardWorld) (a : ReplayEntry) : Prop :=
  (∃ s, w.Stores s ∧ s.Remembers a) ∧
    ∀ g, w.guard = some g → g.poisoned = false → g.state.Remembers a

private theorem decode_stored {w : GuardWorld} {s t : ReplayState} {capacity : ℕ}
    (hs : w.Stores s) (h : ReplayState.decode m w.stored capacity = .ok t) : t = s := by
  obtain ⟨hwell, hlen, hstored⟩ := hs
  rw [hstored] at h
  refine decode_encode_unique hwell ?_ h
  simp only [maxConfiguredEntries] at hlen
  omega

private theorem stores_next {g : FileReplayGuard} {scope : ReplayScope} {entry : ReplayEntry}
    {now : U64} {next : ReplayState} {guard : Option FileReplayGuard}
    (hg : g.capacity ≤ maxConfiguredEntries ∧ g.state.WellFormed)
    (h : g.state.consume scope entry now g.capacity = .ok next) :
    GuardWorld.Stores ⟨next.encode, guard⟩ next :=
  ⟨ReplayState.consume_wellFormed hg.2 h, (ReplayState.consume_length_le h).trans hg.1, rfl⟩

theorem call_consistent {w w' : GuardWorld} {e : GuardEvent} {result : Except ProtocolError Unit}
    (hw : w.Consistent) (h : CallEffect m w e result w') : w'.Consistent := by
  cases h with
  | refused => exact hw
  | @committed g scope entry now next hg hp he hnext =>
      have hguard := hw.guard g hg
      refine ⟨⟨next, stores_next hguard hnext⟩, ?_⟩
      rintro _ ⟨⟩
      exact ⟨hguard.1, ReplayState.consume_wellFormed hguard.2 hnext⟩
  | @failed g scope entry now next stored failure hg hp hnext hstored =>
      have hguard := hw.guard g hg
      refine ⟨?_, by rintro _ ⟨⟩; exact hguard⟩
      rcases hstored with rfl | rfl
      · exact hw.file
      · exact ⟨next, stores_next hguard hnext⟩
  | @reopened state capacity he hlow hhigh hdecode =>
      refine ⟨hw.file, ?_⟩
      rintro _ ⟨⟩
      obtain ⟨s, hs⟩ := hw.file
      obtain rfl := decode_stored m hs hdecode
      exact ⟨hhigh, hs.1⟩
  | closed => exact ⟨hw.file, by simp⟩

theorem call_spends {w w' : GuardWorld} {e : GuardEvent} {a : ReplayEntry}
    (hw : w.Consistent) (h : CallEffect m w e (.ok ()) w') (ha : presented e = some a) :
    w'.Spent a := by
  cases h with
  | @committed g scope entry now next hg hp he hnext =>
      obtain rfl : entry = a := by simpa [he] using ha
      have hself := ReplayState.consume_remembers_self hnext
      exact ⟨⟨next, stores_next (hw.guard g hg) hnext, hself⟩, by rintro _ ⟨⟩ -; exact hself⟩
  | reopened he => simp [he] at ha

theorem call_keeps_spent {w w' : GuardWorld} {e : GuardEvent}
    {result : Except ProtocolError Unit} {a : ReplayEntry} (hw : w.Consistent)
    (h : CallEffect m w e result w') (ha : w.Spent a) : w'.Spent a := by
  obtain ⟨⟨s, hs, hsa⟩, hlive⟩ := ha
  cases h with
  | refused => exact ⟨⟨s, hs, hsa⟩, hlive⟩
  | @committed g scope entry now next hg hp he hnext =>
      have hkeep := ReplayState.consume_remembers hnext (hlive g hg hp)
      exact ⟨⟨next, stores_next (hw.guard g hg) hnext, hkeep⟩, by rintro _ ⟨⟩ -; exact hkeep⟩
  | @failed g scope entry now next stored failure hg hp hnext hstored =>
      have hkeep := ReplayState.consume_remembers hnext (hlive g hg hp)
      refine ⟨?_, by rintro _ ⟨⟩ hq; simp at hq⟩
      rcases hstored with rfl | rfl
      · exact ⟨s, hs, hsa⟩
      · exact ⟨next, stores_next (hw.guard g hg) hnext, hkeep⟩
  | @reopened state capacity he hlow hhigh hdecode =>
      obtain rfl := decode_stored m hs hdecode
      exact ⟨⟨state, hs, hsa⟩, by rintro _ ⟨⟩ -; exact hsa⟩
  | closed => exact ⟨⟨s, hs, hsa⟩, by simp⟩

theorem call_fresh {w w' : GuardWorld} {e : GuardEvent} {a b : ReplayEntry}
    (h : CallEffect m w e (.ok ()) w') (ha : w.Spent a) (hb : presented e = some b) :
    ¬ a.SameToken b := by
  cases h with
  | @committed g scope entry now next hg hp he hnext =>
      obtain rfl : entry = b := by simpa [he] using hb
      exact ReplayState.consume_fresh hnext (ha.2 g hg hp)
  | reopened he => simp [he] at hb

private theorem step_call {w w' : GuardWorld} {e : GuardEvent} (h : step m w e = some w') :
    ∃ result, w.call m e = some (result, w') := by
  obtain ⟨⟨result, next⟩, hcall, rfl⟩ := Option.map_eq_some_iff.mp h
  exact ⟨result, hcall⟩

private theorem consumed_call {w w' : GuardWorld} {e : GuardEvent} {a : ReplayEntry}
    (h : step m w e = some w') (ha : consumed m w e = some a) :
    w.call m e = some (.ok (), w') ∧ presented e = some a := by
  obtain ⟨result, hcall⟩ := step_call m h
  simp only [consumed, outcome, hcall, Option.map_some, Option.some.injEq] at ha
  split_ifs at ha with hok
  exact ⟨hok ▸ hcall, ha⟩

theorem create_consistent {scope : ReplayScope} {capacity : ℕ} {now : U64} {w : GuardWorld}
    (h : FileReplayGuard.create scope capacity now = .ok w) : w.Consistent := by
  simp only [FileReplayGuard.create, validateCapacity, bind_eq_ok, ensure_eq_ok, exists_const,
    pure_eq_ok, Except.ok.injEq] at h
  obtain ⟨⟨-, hcap⟩, rfl⟩ := h
  have hnew := ReplayState.new_wellFormed scope now
  exact ⟨⟨_, hnew, by simp [ReplayState.new], rfl⟩, by rintro _ ⟨⟩; exact ⟨hcap, hnew⟩⟩

/-- No two successful consumptions of a run carry the same token: neither the same request
identifier or nonce with one expiry, nor the same response digest with one expiry. Commits may
fail on either side of the rename, and the file may be reopened with any scope and capacity. -/
theorem replay_safety {scope : ReplayScope} {capacity : ℕ} {now : U64}
    {w : GuardWorld} (hcreate : FileReplayGuard.create scope capacity now = .ok w)
    (events : List GuardEvent) :
    (consumedTokens m w events).Pairwise fun a b => ¬ a.SameToken b := by
  have hinv : ∀ s e t, Consistent s → step m s e = some t → Consistent t := by
    intro s e t hs hstep
    obtain ⟨result, hcall⟩ := step_call m hstep
    exact call_consistent m hs (call_effect m hcall)
  have hspend : ∀ s e t a, Consistent s → step m s e = some t → consumed m s e = some a →
      Spent t a := by
    intro s e t a hs hstep ha
    obtain ⟨hcall, ha⟩ := consumed_call m hstep ha
    exact call_spends m hs (call_effect m hcall) ha
  have hkeep : ∀ s e t a, Consistent s → step m s e = some t → Spent s a → Spent t a := by
    intro s e t a hs hstep ha
    obtain ⟨result, hcall⟩ := step_call m hstep
    exact call_keeps_spent m hs (call_effect m hcall) ha
  have hfresh : ∀ s e t a b, Consistent s → step m s e = some t → Spent s a →
      consumed m s e = some b → ¬ a.SameToken b := by
    intro s e t a b hs hstep ha hb
    obtain ⟨hcall, hb⟩ := consumed_call m hstep hb
    exact call_fresh m (call_effect m hcall) ha hb
  exact Machine.emitted_pairwise hinv hspend hkeep hfresh events (create_consistent hcreate)

private def witnessScope : ReplayScope :=
  ⟨.phoneRequests, Bytes.replicate 16 0x11, Bytes.replicate 16 0x22⟩

private def witnessRequest : GuardEvent :=
  .consumeRequest witnessScope.desktopId witnessScope.identityId (Bytes.replicate 16 1)
    (Bytes.replicate 32 2) 110 100 .done

theorem replay_safety_after_restart :
    (consumedTokens .definite
      ⟨(ReplayState.new witnessScope 100).encode, some ⟨.new witnessScope 100, 2, false⟩⟩
      [witnessRequest, .reopen witnessScope 2, witnessRequest]).Pairwise
        fun a b => ¬ a.SameToken b :=
  replay_safety .definite (show FileReplayGuard.create witnessScope 2 100 = .ok _ from rfl) _

end GuardWorld

namespace ReplayState

/-- States reached from `new` by successful consumptions at one configured capacity. -/
inductive Reachable (capacity : ℕ) : ReplayState → Prop
  | new (scope : ReplayScope) (nowUnix : U64) : Reachable capacity (.new scope nowUnix)
  | consumeRequest {s t scope requestId nonce expires now} : Reachable capacity s →
      s.consumeRequest scope requestId nonce expires now capacity = .ok t → Reachable capacity t
  | consumeResponse {s t scope digest expires now} : Reachable capacity s →
      s.consumeResponse scope digest expires now capacity = .ok t → Reachable capacity t

theorem Reachable.wellFormed {capacity : ℕ} {s : ReplayState} (h : Reachable capacity s) :
    s.WellFormed := by
  induction h with
  | new scope nowUnix => exact new_wellFormed scope nowUnix
  | consumeRequest _ hconsume ih => exact consume_wellFormed ih hconsume
  | consumeResponse _ hconsume ih => exact consume_wellFormed ih hconsume

theorem Reachable.length_le {capacity : ℕ} {s : ReplayState} (h : Reachable capacity s) :
    s.entries.length ≤ capacity := by
  cases h with
  | new => simp [ReplayState.new]
  | consumeRequest _ hconsume => exact consume_length_le hconsume
  | consumeResponse _ hconsume => exact consume_length_le hconsume

end ReplayState

end AgePluginPhone.Core
