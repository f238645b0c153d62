import AgePluginPhone.Android.PairingInvariant
import AgePluginPhone.Library.Machine

/-!
# Consumption of signed requests on Android

Runs of the pairing store over every desktop and identity, with faults and restarts. A state
file remembers each consumed request of its scope until the clock passes the expiry; removing
the file forgets them, so a request is consumed at most once exactly where no creation starts a
scope anew while a request consumed under it could still be presented.
-/

namespace AgePluginPhone.Android

open Library StorageM

variable (p : Platform)

inductive Call
  | createAt (record : StoredPairingRecord) (nowUnix : Long) (capacity : ℕ)
  | openAt (desktopId identityId : Bytes 16)
  | consumeRequest (scope : Digest) (request : VerifiedRequest) (nowUnix : Long)
  | close (scope : Digest)
  | revokeAt (identityId : Bytes 16) (handle : Digest)
  | revokeAll (identityId : Bytes 16)

def Call.run : Call → Io Unit
  | createAt record nowUnix capacity => Android.createAt p record nowUnix capacity
  | openAt desktopId identityId => do
      let _ ← Android.openAt p desktopId identityId
  | consumeRequest scope request nowUnix => Android.consumeRequest scope request nowUnix
  | close scope => Android.close scope
  | revokeAt identityId handle => Android.revokeAt p identityId handle
  | revokeAll identityId => Android.revokeAll p identityId

/-- A call and the faults its storage steps meet. -/
structure Event where
  call : Call
  faults : List Fault

namespace World

def step (w : World) (e : Event) : Option World := some (w.execute (e.call.run p) e.faults).2

/-- The request a successful `consumeRequest` consumed. -/
def consumed (w : World) (e : Event) : Option VerifiedRequest :=
  match e.call, (w.execute (e.call.run p) e.faults).1 with
  | .consumeRequest _ request _, .ok _ => some request
  | _, _ => none

def consumedRequests : World → List Event → List VerifiedRequest :=
  Machine.emitted (step p) (consumed p)

end World

namespace State

/-- The request is stored, or the clock high-water mark has passed its expiry. -/
def Remembers (s : State) (e : Entry) : Prop :=
  ExpiringSet.Remembers Entry.expiresAtUnix s.entries s.lastSeenUnix e

variable {p} {s next : State} {request : VerifiedRequest} {nowUnix : Long}

theorem consume_eq_ok : s.consume request nowUnix = .ok next ↔
    (request.desktopId = s.record.desktopId ∧ request.identityId = s.record.identityId) ∧
    ((0 ≤ nowUnix.1 ∧ nowUnix ≤ request.expiresAtUnix) ∧
      request.expiresAtUnix.1 - nowUnix.1 ≤ 300) ∧
    s.lastSeenUnix ≤ nowUnix ∧ (∀ e ∈ s.liveEntries nowUnix, ¬ e.Clashes request.entry) ∧
    (s.liveEntries nowUnix).length < s.capacity ∧
    next = { s with
      lastSeenUnix := nowUnix
      entries := (s.liveEntries nowUnix ++ [request.entry]).insertionSort (· ≤ ·) } := by
  simp only [consume, validateExpiry, bind_eq_ok, ensure_eq_ok, exists_const, pure_eq_ok,
    Except.ok.injEq, eq_comm (b := next)]

theorem consume_mem (h : s.consume request nowUnix = .ok next) (e : Entry) :
    e ∈ next.entries ↔ e ∈ s.liveEntries nowUnix ∨ e = request.entry := by
  obtain ⟨-, -, -, -, -, rfl⟩ := consume_eq_ok.mp h
  simp

/-- Consumption commits a well-formed state with the same record. -/
theorem consume_wellFormed (hs : s.WellFormed p) (h : s.consume request nowUnix = .ok next) :
    next.WellFormed p ∧ next.record = s.record := by
  have hmem := consume_mem h
  obtain ⟨-, ⟨⟨-, hlive⟩, -⟩, hclock, hfresh, hroom, rfl⟩ := consume_eq_ok.mp h
  have hunique : (s.liveEntries nowUnix ++ [request.entry]).Pairwise fun a b => ¬ a.Clashes b := by
    refine List.pairwise_append.mpr ⟨hs.unique.filter _, List.pairwise_singleton _ _, ?_⟩
    intro a ha b hb
    obtain rfl := List.mem_singleton.mp hb
    exact hfresh a ha
  have hperm := List.perm_insertionSort (· ≤ ·) (s.liveEntries nowUnix ++ [request.entry])
  have hsorted := (hperm.pairwise_iff fun {a b} hab hba => hab (Entry.Clashes.symm hba)).mpr hunique
  refine ⟨⟨hs.record, hs.capacity, hs.created, hs.seen.trans hclock, ?_, ?_, ?_, hsorted⟩, rfl⟩
  · simpa [Nat.succ_le_iff] using hroom
  · intro e he
    rcases (hmem e).mp he with he | rfl
    · exact (ExpiringSet.mem_live.mp he).2
    · exact hlive
  · refine ((List.pairwise_insertionSort (· ≤ ·) _).and hsorted).imp ?_
    rintro a b ⟨hab, hclash⟩
    refine lt_of_le_of_ne hab ?_
    rintro rfl
    exact hclash (Or.inl rfl)

theorem consume_remembers_self (h : s.consume request nowUnix = .ok next) :
    next.Remembers request.entry :=
  Or.inl ((consume_mem h _).mpr (Or.inr rfl))

theorem consume_remembers (h : s.consume request nowUnix = .ok next) {e : Entry}
    (he : s.Remembers e) : next.Remembers e := by
  have hclock := (consume_eq_ok.mp h).2.2.1
  have hseen : next.lastSeenUnix = nowUnix := by
    obtain ⟨-, -, -, -, -, rfl⟩ := consume_eq_ok.mp h
    rfl
  rw [Remembers, hseen]
  exact he.advance hclock fun x hx => (consume_mem h x).mpr (Or.inl hx)

/-- A remembered request of the scope is refused. -/
theorem consume_fresh (h : s.consume request nowUnix = .ok next) : ¬ s.Remembers request.entry := by
  intro he
  obtain ⟨-, ⟨⟨-, hlive⟩, -⟩, hclock, hfresh, -, -⟩ := consume_eq_ok.mp h
  exact he.not_clash Entry.Clashes hclock hlive rfl hfresh (Or.inl rfl)

end State

/-- A state of the named file that remembers every consumed request of its scope. -/
structure Committed (history : List VerifiedRequest) (n : Digest) (s : State) : Prop where
  wellFormed : s.WellFormed p
  file : s.record.file p = n
  remembers : ∀ request ∈ history, request.desktopId = s.record.desktopId →
    request.identityId = s.record.identityId → s.Remembers request.entry

/-- The directory invariant of a run that has consumed the given requests. -/
abbrev Recorded (history : List VerifiedRequest) : World → Prop :=
  Invariant (Committed p history) (fun _ _ => True) False

/-- Where a creation starts a scope anew, no request consumed under that scope can still be
presented: each has expired by the creation time. -/
def ScopeExpired (history : List VerifiedRequest) (w : World) (e : Event) : Prop :=
  match e.call with
  | .createAt record nowUnix capacity =>
      Starts p record nowUnix capacity w →
        ∀ request ∈ history, request.desktopId = record.desktopId →
          request.identityId = record.identityId → request.expiresAtUnix < nowUnix
  | _ => True

instance (history : List VerifiedRequest) (w : World) :
    ∀ e : Event, Decidable (ScopeExpired p history w e)
  | ⟨.createAt record nowUnix capacity, _⟩ => inferInstanceAs (Decidable
      (Starts p record nowUnix capacity w →
        ∀ request ∈ history, request.desktopId = record.desktopId →
          request.identityId = record.identityId → request.expiresAtUnix < nowUnix))
  | ⟨.openAt _ _, _⟩ | ⟨.consumeRequest _ _ _, _⟩ | ⟨.close _, _⟩ | ⟨.revokeAt _ _, _⟩
  | ⟨.revokeAll _, _⟩ => isTrue trivial

section Runs

variable {p} {history : List VerifiedRequest}

theorem execute_invariant {Live Deleting : Digest → State → Prop} {exclusive : Prop} {α : Type}
    {x : Io α} {pre : World → Prop} {w : World}
    (h : Triple pre x (fun _ => Invariant Live Deleting exclusive)
      (Interrupted Live Deleting exclusive)) (hw : pre w) (faults : List Fault) :
    Invariant Live Deleting exclusive (w.execute x faults).2 := by
  have hx := h w faults hw
  cases hvalue : (x w faults).value with
  | ok a =>
      simp only [World.execute, hvalue]
      exact hx.of_ok hvalue
  | error stop =>
      have hstop := hx.of_error hvalue
      cases stop with
      | failure reason =>
          simp only [World.execute, hvalue]
          exact hstop
      | crash =>
          simp only [World.execute, hvalue]
          exact FilesInvariant.restart hstop

/-- Every call keeps an invariant whose live states a consumption stays in. -/
theorem step_invariant {Live Deleting : Digest → State → Prop} {exclusive : Prop} {w : World}
    {e : Event} (hwell : ∀ n s, Live n s → s.WellFormed p)
    (himp : ∀ n s, Live n s → Deleting n s)
    (hconsume : ∀ n s next request nowUnix, Live n s →
      s.consume request nowUnix = .ok next → Live n next)
    (hcreate : ∀ record nowUnix capacity, e.call = .createAt record nowUnix capacity →
      Creatable p Live exclusive record nowUnix capacity w)
    (hw : Invariant Live Deleting exclusive w) :
    Invariant Live Deleting exclusive (w.execute (e.call.run p) e.faults).2 := by
  obtain ⟨call, faults⟩ := e
  cases call with
  | createAt record nowUnix capacity =>
      exact execute_invariant (createAt_triple record nowUnix capacity)
        ⟨hw, hcreate record nowUnix capacity rfl⟩ faults
  | openAt desktopId identityId =>
      exact execute_invariant (Triple.bind (openAt_triple hwell desktopId identityId)
        fun _ => Triple.pure' fun _ h => h) hw faults
  | consumeRequest scope request nowUnix =>
      refine execute_invariant ((consumeRequest_triple scope request nowUnix ?_).weaken
        (fun _ h => h) (fun _ _ h => h.1) fun _ _ h => h) hw faults
      exact fun s next => hconsume scope s next request nowUnix
  | close scope => exact execute_invariant (close_triple scope) ⟨hw.files, hw.except _⟩ faults
  | revokeAt identityId handle =>
      exact execute_invariant (revokeAt_triple hwell himp identityId handle) hw faults
  | revokeAll identityId =>
      exact execute_invariant (revokeAll_triple hwell himp identityId) hw faults

private theorem committed_consume {n : Digest} {s next : State} {request : VerifiedRequest}
    {nowUnix : Long} (hs : Committed p history n s)
    (h : s.consume request nowUnix = .ok next) : Committed p (history ++ [request]) n next := by
  obtain ⟨hwell, hrecord⟩ := State.consume_wellFormed hs.wellFormed h
  refine ⟨hwell, hrecord ▸ hs.file, ?_⟩
  intro r hr hdesktop hidentity
  rw [hrecord] at hdesktop hidentity
  rcases List.mem_append.mp hr with hr | hr
  · exact State.consume_remembers h (hs.remembers r hr hdesktop hidentity)
  · obtain rfl := List.mem_singleton.mp hr
    exact State.consume_remembers_self h

private theorem Committed.of_append {n : Digest} {s : State} {request : VerifiedRequest}
    (hs : Committed p (history ++ [request]) n s) : Committed p history n s :=
  ⟨hs.wellFormed, hs.file, fun r hr => hs.remembers r (List.mem_append_left _ hr)⟩

/-- States of other files do not concern a request of this scope. -/
private theorem Committed.append_of_ne {n : Digest} {s : State} {request : VerifiedRequest}
    (hs : Committed p history n s) (hne : n ≠ stateFile p request.desktopId request.identityId) :
    Committed p (history ++ [request]) n s := by
  refine ⟨hs.wellFormed, hs.file, ?_⟩
  intro r hr hdesktop hidentity
  rcases List.mem_append.mp hr with hr | hr
  · exact hs.remembers r hr hdesktop hidentity
  · obtain rfl := List.mem_singleton.mp hr
    exact absurd (by rw [← hs.file, StoredPairingRecord.file, hdesktop, hidentity]) hne

/-- A successful consumption extends the recorded history by its request. -/
private theorem recorded_append {w : World} {scope : Digest} {s next : State}
    {request : VerifiedRequest} {nowUnix : Long} (hw : Recorded p history w)
    (hs : Committed p history scope s) (h : s.consume request nowUnix = .ok next)
    (hfile : w.files.lookup (.live scope) = some (encode next)) :
    Recorded p (history ++ [request]) w := by
  have hnext := committed_consume hs h
  have hscope : scope = stateFile p request.desktopId request.identityId := by
    obtain ⟨⟨hdesktop, hidentity⟩, -⟩ := State.consume_eq_ok.mp h
    rw [← hs.file, StoredPairingRecord.file, hdesktop, hidentity]
  refine ⟨⟨?_, hw.files.deleting, fun hfalse => hfalse.elim⟩, ?_⟩
  · intro n content hn
    obtain ⟨t, ht, rfl, hsize⟩ := hw.files.live n content hn
    by_cases hne : n = scope
    · subst hne
      rw [hfile] at hn
      have heq : encode next = encode t := Option.some.inj hn
      exact ⟨next, hnext, heq.symm, hsize⟩
    · exact ⟨t, ht.append_of_ne (hscope ▸ hne), rfl, hsize⟩
  · intro n store hfalse hstore husable
    obtain ⟨ht, hlookup⟩ := hw.stores n store hfalse hstore husable
    refine ⟨?_, hlookup⟩
    by_cases hne : n = scope
    · subst hne
      rw [hfile] at hlookup
      obtain rfl := encode_injective hnext.wellFormed ht.wellFormed (Option.some.inj hlookup)
      exact hnext
    · exact ht.append_of_ne (hscope ▸ hne)

private theorem creatable {w : World} {record : StoredPairingRecord} {nowUnix : Long}
    {capacity : ℕ} {faults : List Fault}
    (h : ScopeExpired p history w ⟨.createAt record nowUnix capacity, faults⟩) :
    Creatable p (Committed p history) False record nowUnix capacity w := by
  intro hstarts
  refine ⟨fun hfalse => hfalse.elim, initialState_wellFormed hstarts, rfl, ?_⟩
  intro request hr hdesktop hidentity
  exact Or.inr (h hstarts request hr hdesktop hidentity)

private theorem consumed_eq_some {w : World} {e : Event} {request : VerifiedRequest}
    (h : w.consumed p e = some request) : ∃ scope nowUnix,
      e.call = .consumeRequest scope request nowUnix ∧
        ∃ u, (w.execute (e.call.run p) e.faults).1 = .ok u := by
  unfold World.consumed at h
  split at h
  · rename_i scope r nowUnix u hcall hvalue
    obtain rfl := Option.some.inj h
    exact ⟨scope, nowUnix, hcall, u, hvalue⟩
  · exact absurd h (by simp)

/-- A consumption that succeeded took effect on the state of its scope. -/
private theorem consumption {w : World} {e : Event} {request : VerifiedRequest}
    (hw : Recorded p history w) (h : w.consumed p e = some request) :
    ∃ scope s next nowUnix, Committed p history scope s ∧ s.consume request nowUnix = .ok next ∧
      (w.execute (e.call.run p) e.faults).2.files.lookup (.live scope) = some (encode next) := by
  obtain ⟨scope, nowUnix, hcall, u, hvalue⟩ := consumed_eq_some h
  obtain ⟨call, faults⟩ := e
  obtain rfl : call = .consumeRequest scope request nowUnix := hcall
  have htriple := consumeRequest_triple scope request nowUnix
    (fun s next hs hnext => (committed_consume hs hnext).of_append) w faults hw
  have hrun : (consumeRequest scope request nowUnix w faults).value = .ok u := by
    simp only [World.execute, Call.run] at hvalue
    split at hvalue <;> simp_all
  obtain ⟨-, s, next, hs, hnext, hfile⟩ := htriple.of_ok hrun
  refine ⟨scope, s, next, nowUnix, hs, hnext, ?_⟩
  simpa only [World.execute, Call.run, hrun] using hfile

/-- Every allowed step keeps the consumed requests recorded. -/
theorem recorded_step {w w' : World} {e : Event} (hallowed : ScopeExpired p history w e)
    (hw : Recorded p history w) (hstep : w.step p e = some w') :
    Recorded p (history ++ (w.consumed p e).toList) w' := by
  obtain rfl := Option.some.inj hstep
  have hkeep : Recorded p history (w.execute (e.call.run p) e.faults).2 := by
    refine step_invariant (fun _ _ hs => hs.wellFormed) (fun _ _ _ => trivial)
      (fun _ _ _ _ _ hs hnext => (committed_consume hs hnext).of_append) ?_ hw
    rintro record nowUnix capacity hcall
    obtain ⟨call, faults⟩ := e
    obtain rfl : call = .createAt record nowUnix capacity := hcall
    exact creatable hallowed
  cases hconsumed : w.consumed p e with
  | none => simpa using hkeep
  | some request =>
      obtain ⟨scope, s, next, nowUnix, hs, hnext, hfile⟩ := consumption hw hconsumed
      exact recorded_append hkeep hs hnext hfile

/-- No recorded request is consumed again. -/
theorem recorded_fresh {w : World} {e : Event} {a b : VerifiedRequest}
    (hw : Recorded p history w) (ha : a ∈ history) (hb : w.consumed p e = some b) : a ≠ b := by
  rintro rfl
  obtain ⟨scope, s, next, nowUnix, hs, hnext, -⟩ := consumption hw hb
  obtain ⟨⟨hdesktop, hidentity⟩, -⟩ := State.consume_eq_ok.mp hnext
  exact State.consume_fresh hnext (hs.remembers a ha hdesktop hidentity)

/-- In every run that starts no scope anew while a request consumed under it is unexpired, no
verified request is consumed twice, whatever faults and restarts the run meets. -/
theorem consumed_once (events : List Event)
    (hrun : Machine.Admissible (World.step p) (World.consumed p) (ScopeExpired p) []
      World.empty events) :
    (World.consumedRequests p World.empty events).Nodup := by
  have hempty : Recorded p [] World.empty := by
    constructor
    · constructor <;> simp [World.empty]
    · rintro n store - hstore
      simp [World.empty] at hstore
  exact Machine.emitted_pairwise_of_history (fun _ _ _ _ hallowed hw hstep =>
    recorded_step hallowed hw hstep) (fun _ _ _ _ _ _ hw _ ha hb => recorded_fresh hw ha hb)
    hempty List.Pairwise.nil hrun

end Runs

section Recreation

def sampleRequest : VerifiedRequest where
  desktopId := sampleRecord.desktopId
  identityId := sampleRecord.identityId
  requestId := Bytes.replicate 16 5
  nonce := Bytes.replicate 32 6
  expiresAtUnix := ⟨1300, by decide⟩

def sampleScope : Digest := sampleRecord.file samplePlatform

/-- Pair, consume the request at 1000, revoke, and pair the same identifiers again at the given
time. -/
def recreation (nowUnix : Long) : List Event :=
  [⟨.createAt sampleRecord ⟨1000, by decide⟩ 4, []⟩,
    ⟨.consumeRequest sampleScope sampleRequest ⟨1000, by decide⟩, []⟩,
    ⟨.close sampleScope, []⟩,
    ⟨.revokeAt sampleRecord.identityId (managementHandle samplePlatform sampleRecord), []⟩,
    ⟨.createAt sampleRecord nowUnix 4, []⟩,
    ⟨.consumeRequest sampleScope sampleRequest nowUnix, []⟩]

theorem consumed_once_after_expiry :
    (World.consumedRequests samplePlatform World.empty (recreation ⟨1301, by decide⟩)).Nodup :=
  consumed_once _ (by decide +kernel)

/-- Pairing again within the request's lifetime consumes it a second time. -/
theorem consumed_twice_after_recreation :
    ¬ (World.consumedRequests samplePlatform World.empty (recreation ⟨1001, by decide⟩)).Nodup := by
  decide +kernel

end Recreation

end AgePluginPhone.Android
