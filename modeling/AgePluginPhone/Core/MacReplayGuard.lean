import AgePluginPhone.Core.ReplayGuard
import AgePluginPhone.Library.Storage

/-!
# File replay guard on macOS

`FileReplayGuard` of `replay_macos.rs`: a commit leaves a durable `.pending` marker from before the
state file is replaced until after, and a directory with that marker is not opened. Every storage
step may fail, with or without having taken effect, or be the last one of its process.
-/

namespace AgePluginPhone.Core.MacReplay

open Library StorageM

/-- The two files of a guard, by the name of its state file. -/
inductive FileName
  | state
  | pending
  deriving DecidableEq

/-- The files, and the guard a process holds on them. The lock lives as long as the guard. -/
structure World where
  files : FileName → Option (List Byte)
  guard : Option FileReplayGuard

namespace World

def empty : World := ⟨fun _ => none, none⟩

def setFile (w : World) (name : FileName) (content : Option (List Byte)) : World :=
  { w with files := Function.update w.files name content }

@[simp] theorem setFile_guard (w : World) (name : FileName) (content : Option (List Byte)) :
    (w.setFile name content).guard = w.guard := rfl

@[simp] theorem setFile_files (w : World) (name other : FileName) (content : Option (List Byte)) :
    (w.setFile name content).files other = if other = name then content else w.files other := by
  simp [setFile, Function.update_apply]

end World

abbrev Io := StorageM World ProtocolError

section Storage

/-- A step that changes neither file: a validation, a sync, the temporary file of a replacement. -/
def settle : Io Unit := effect (fun w => some w) .replayState

/-- `write_all` on a file created by this call, byte by byte. -/
def writeAll (name : FileName) (bytes : List Byte) : Io Unit :=
  bytes.forM fun b => effect
    (fun w => (w.files name).map fun content => w.setFile name (some (content ++ [b]))) .replayState

/-- `Directory::create`, which never opens an existing file. -/
def create (name : FileName) (bytes : List Byte) : Io Unit := do
  check (ensure (bytes.length ≤ maxStateBytes) .replayState)
  settle
  effect (fun w => if w.files name = none then some (w.setFile name (some [])) else none) .replayState
  writeAll name bytes
  settle

/-- `Directory::replace`, by a rename over the existing file. -/
def replace (name : FileName) (bytes : List Byte) : Io Unit := do
  check (ensure (bytes.length ≤ maxStateBytes) .replayState)
  settle
  effect (fun w => (w.files name).map fun _ => w.setFile name (some bytes)) .replayState
  settle

def remove (name : FileName) : Io Unit := do
  settle
  effect (fun w => (w.files name).map fun _ => w.setFile name none) .replayState
  settle

/-- `Directory::read`, of a file that must be present and not empty. -/
def read (name : FileName) (max : ℕ) : Io (List Byte) := do
  settle
  let content ← check (okOr ((← load).files name) .replayState)
  check (ensure (content ≠ [] ∧ content.length ≤ max) .replayState)
  return content

end Storage

section Calls

/-- `open_storage`: take the lock, and refuse a directory with a marker. -/
def openStorage : Io Unit := do
  settle
  check (ensure ((← load).guard = none) .replayState)
  settle
  check (ensure ((← load).files .pending = none) .replayState)

def hold (g : FileReplayGuard) : Io Unit := modify fun w => { w with guard := some g }

def createGuard (scope : ReplayScope) (capacity : ℕ) (nowUnix : U64) : Io Unit := do
  check (validateCapacity capacity)
  openStorage
  let state := ReplayState.new scope nowUnix
  create .state state.encode
  hold ⟨state, capacity, false⟩

def openGuard (m : Minicbor) (expectedScope : ReplayScope) (capacity : ℕ) : Io Unit := do
  check (validateCapacity capacity)
  openStorage
  let encoded ← read .state maxStateBytes
  let state ← check (ReplayState.decode m encoded capacity)
  check (ensure (state.scope = expectedScope) .replayState)
  hold ⟨state, capacity, false⟩

def pendingMark : List Byte := utf8 "pending"

/-- The storage steps of `commit`. -/
def commitSteps (next : ReplayState) : Io Unit := do
  settle
  create .pending pendingMark
  replace .state next.encode
  settle
  remove .pending

def poison (g : FileReplayGuard) : Io Unit := do
  hold { g with poisoned := true }
  raise .replayState

def commit (g : FileReplayGuard) (next : ReplayState) : Io Unit := do
  check (ensure (g.poisoned = false) .replayState)
  StorageM.recover (commitSteps next) fun _ => poison g
  hold { g with state := next }

/-- The common body of the two trait methods. -/
def consumeWith (g : FileReplayGuard) (consume : ReplayState → Except ProtocolError ReplayState) :
    Io Unit := do
  check (ensure (g.poisoned = false) .replayState)
  let next ← check (consume g.state)
  commit g next

def consumeRequest (g : FileReplayGuard) (desktopId identityId requestId : Id)
    (nonce : ProtocolNonce) (expiresAtUnix nowUnix : U64) : Io Unit :=
  consumeWith g fun s => s.consumeRequest ⟨.phoneRequests, desktopId, identityId⟩ requestId nonce
    expiresAtUnix nowUnix g.capacity

def consumeResponse (g : FileReplayGuard) (desktopId identityId : Id) (digest : ProtocolDigest)
    (expiresAtUnix nowUnix : U64) : Io Unit :=
  consumeWith g fun s => s.consumeResponse ⟨.desktopResponses, desktopId, identityId⟩ digest
    expiresAtUnix nowUnix g.capacity

end Calls

inductive Call
  | create (scope : ReplayScope) (capacity : ℕ) (nowUnix : U64)
  | «open» (expectedScope : ReplayScope) (capacity : ℕ)
  | consumeRequest (desktopId identityId requestId : Id) (nonce : ProtocolNonce)
      (expiresAtUnix nowUnix : U64)
  | consumeResponse (desktopId identityId : Id) (digest : ProtocolDigest)
      (expiresAtUnix nowUnix : U64)
  | drop

/-- A call, and the faults its storage steps meet. -/
structure Event where
  call : Call
  faults : List Fault

namespace World

variable (m : Minicbor)

/-- The computation of a call; a consumption needs a guard to be called on. -/
def computation (w : World) : Call → Option (Io Unit)
  | .create scope capacity nowUnix => some (createGuard scope capacity nowUnix)
  | .open scope capacity => some (openGuard m scope capacity)
  | .consumeRequest desktopId identityId requestId nonce expires now =>
      w.guard.map fun g => MacReplay.consumeRequest g desktopId identityId requestId nonce expires now
  | .consumeResponse desktopId identityId digest expires now =>
      w.guard.map fun g => MacReplay.consumeResponse g desktopId identityId digest expires now
  | .drop => some (modify fun w => { w with guard := none })

/-- A process that stops loses its guard. -/
def execute (w : World) (x : Io Unit) (faults : List Fault) : Except (Stop ProtocolError) Unit × World :=
  let outcome := x w faults
  (outcome.value, match outcome.value with
    | .error .crash => { outcome.store with guard := none }
    | _ => outcome.store)

def call (w : World) (e : Event) : Option (Except (Stop ProtocolError) Unit × World) :=
  (w.computation m e.call).map fun x => w.execute x e.faults

def step (w : World) (e : Event) : Option World := (w.call m e).map Prod.snd

/-- The token presented by a consumption. -/
def presented : Call → Option ReplayEntry
  | .consumeRequest _ _ requestId nonce expires _ => some (.request requestId nonce expires)
  | .consumeResponse _ _ digest expires _ => some (.response digest expires)
  | _ => none

/-- The token of a consumption that returned normally or replaced the state file. -/
def spent (w : World) (e : Event) : Option ReplayEntry :=
  match w.call m e with
  | some (result, w') =>
      if result = .ok () ∨ w'.files .state ≠ w.files .state then presented e.call else none
  | none => none

end World

section Steps

variable {P : World → Prop} {state : Option (List Byte)} {guard : Option FileReplayGuard}

/-- The state file's content and the guard that is held. -/
def At (state : Option (List Byte)) (guard : Option FileReplayGuard) (w : World) : Prop :=
  w.files .state = state ∧ w.guard = guard

theorem settle_keeps : Triple P settle (fun _ => P) fun _ => P := by
  apply Triple.effect
  · intro w t hw heq
    obtain rfl := Option.some.inj heq
    exact ⟨hw, fun _ => hw⟩
  · exact fun _ hw _ => hw

private theorem effect_pending {f : World → Option World} {reason : ProtocolError}
    (hf : ∀ w t, f w = some t → ∃ content, t = w.setFile .pending content) :
    Triple (At state guard) (effect f reason) (fun _ => At state guard) fun _ => At state guard := by
  apply Triple.effect
  · intro w t hw heq
    obtain ⟨content, rfl⟩ := hf w t heq
    have hsame : At state guard (w.setFile .pending content) := by
      simpa [At] using hw
    exact ⟨hsame, fun _ => hsame⟩
  · exact fun _ hw _ => hw

private theorem create_pending (bytes : List Byte) :
    Triple (At state guard) (create .pending bytes) (fun _ => At state guard)
      fun _ => At state guard := by
  refine Triple.check_bind (fun _ _ => ?_) fun _ _ _ hw => hw
  refine Triple.bind settle_keeps fun _ => ?_
  refine Triple.bind (effect_pending fun w t heq => ?_) fun _ => ?_
  · split_ifs at heq
    exact ⟨_, (Option.some.inj heq).symm⟩
  · refine Triple.bind (Triple.forM fun b _ => effect_pending fun w t heq => ?_) fun _ => settle_keeps
    obtain ⟨content, -, heq⟩ := Option.map_eq_some_iff.mp heq
    exact ⟨_, heq.symm⟩

private theorem remove_pending :
    Triple (At state guard) (remove .pending) (fun _ => At state guard) fun _ => At state guard := by
  refine Triple.bind settle_keeps fun _ => ?_
  refine Triple.bind (effect_pending fun w t heq => ?_) fun _ => settle_keeps
  obtain ⟨content, -, heq⟩ := Option.map_eq_some_iff.mp heq
  exact ⟨_, heq.symm⟩

/-- A replacement is done when it returns, and done or not when it does not. -/
private theorem replace_state (bytes : List Byte) :
    Triple (At state guard) (replace .state bytes) (fun _ => At (some bytes) guard)
      fun _ w => At state guard w ∨ At (some bytes) guard w := by
  refine Triple.check_bind (fun _ _ => ?_) fun _ _ _ hw => Or.inl hw
  refine Triple.bind (settle_keeps.weaken (fun _ hw => hw) (fun _ _ hw => hw) fun _ _ hw => Or.inl hw)
    fun _ => ?_
  refine Triple.seq (fun _ => At (some bytes) guard) ?_ fun _ =>
    settle_keeps.weaken (fun _ hw => hw) (fun _ _ hw => hw) fun _ _ hw => Or.inr hw
  apply Triple.effect
  · intro w t hw heq
    obtain ⟨content, -, rfl⟩ := Option.map_eq_some_iff.mp heq
    have hdone : At (some bytes) guard (w.setFile .state (some bytes)) := by
      simpa [At] using hw.2
    exact ⟨hdone, fun _ => Or.inr hdone⟩
  · exact fun _ hw _ => Or.inl hw

private theorem writeAll_state (written bytes : List Byte) :
    Triple (At (some written) guard) (writeAll .state bytes)
      (fun _ => At (some (written ++ bytes)) guard) fun _ w => w.guard = guard := by
  induction bytes generalizing written with
  | nil => exact Triple.pure' fun w hw => by simpa using hw
  | cons b bytes ih =>
      refine Triple.seq (fun _ => At (some (written ++ [b])) guard) ?_ fun _ => ?_
      · apply Triple.effect
        · intro w t hw heq
          obtain ⟨content, hcontent, rfl⟩ := Option.map_eq_some_iff.mp heq
          rw [hw.1, Option.some.injEq] at hcontent
          subst hcontent
          have hnext : At (some (written ++ [b])) guard (w.setFile .state (some (written ++ [b]))) := by
            simpa [At] using hw.2
          exact ⟨hnext, fun _ => hnext.2⟩
        · exact fun _ hw _ => hw.2
      · have hrest := ih (written ++ [b])
        rw [List.append_assoc] at hrest
        exact hrest

/-- A creation writes the whole file in a free place, or leaves the place taken as it was. -/
private theorem create_state (bytes : List Byte) :
    Triple (At state guard) (create .state bytes)
      (fun _ w => state = none ∧ At (some bytes) guard w)
      fun _ w => w.guard = guard ∧ (w.files .state = state ∨ state = none) := by
  have hkeep : Triple (At state guard) settle (fun _ => At state guard)
      fun _ w => w.guard = guard ∧ (w.files .state = state ∨ state = none) :=
    settle_keeps.weaken (fun _ hw => hw) (fun _ _ hw => hw) fun _ _ hw => ⟨hw.2, Or.inl hw.1⟩
  refine Triple.check_bind (fun _ _ => ?_) fun _ _ _ hw => ⟨hw.2, Or.inl hw.1⟩
  refine Triple.bind hkeep fun _ => ?_
  refine Triple.seq (fun _ w => state = none ∧ At (some []) guard w) ?_ fun _ => ?_
  · apply Triple.effect
    · intro w t hw heq
      split_ifs at heq with hfree
      obtain rfl := Option.some.inj heq
      have hstate : state = none := hw.1.symm.trans hfree
      have hempty : At (some []) guard (w.setFile .state (some [])) := by
        simpa [At] using hw.2
      exact ⟨⟨hstate, hempty⟩, fun _ => ⟨hempty.2, Or.inr hstate⟩⟩
    · exact fun _ hw _ => ⟨hw.2, Or.inl hw.1⟩
  · intro w faults hw
    have hstate := hw.1
    refine Triple.bind ((writeAll_state [] bytes).weaken (fun _ h => h) (fun _ _ h => h)
      fun _ _ h => ⟨h, Or.inr hstate⟩) (fun _ => ?_) w faults hw.2
    exact settle_keeps.weaken (fun _ h => h) (fun _ _ h => ⟨hstate, h⟩)
      fun _ _ h => ⟨h.2, Or.inr hstate⟩

/-- What a commit leaves, however it ends. -/
theorem commit_ends {g : FileReplayGuard} (hg : g.poisoned = false) (next : ReplayState) :
    Triple (At state (some g)) (commit g next)
      (fun _ => At (some next.encode) (some { g with state := next }))
      fun stop w => (w.files .state = state ∨ w.files .state = some next.encode) ∧
        (stop = .crash ∨ w.guard = some { g with poisoned := true }) := by
  have hsteps : Triple (At state (some g)) (commitSteps next)
      (fun _ => At (some next.encode) (some g))
      fun _ w => At state (some g) w ∨ At (some next.encode) (some g) w := by
    have hbefore {x : Io Unit} (hx : Triple (At state (some g)) x (fun _ => At state (some g))
        fun _ => At state (some g)) : Triple (At state (some g)) x (fun _ => At state (some g))
          fun _ w => At state (some g) w ∨ At (some next.encode) (some g) w :=
      hx.weaken (fun _ hw => hw) (fun _ _ hw => hw) fun _ _ hw => Or.inl hw
    have hafter {x : Io Unit} (hx : Triple (At (some next.encode) (some g)) x
        (fun _ => At (some next.encode) (some g)) fun _ => At (some next.encode) (some g)) :
        Triple (At (some next.encode) (some g)) x (fun _ => At (some next.encode) (some g))
          fun _ w => At state (some g) w ∨ At (some next.encode) (some g) w :=
      hx.weaken (fun _ hw => hw) (fun _ _ hw => hw) fun _ _ hw => Or.inr hw
    exact Triple.bind (hbefore settle_keeps) fun _ => Triple.bind (hbefore (create_pending _))
      fun _ => Triple.bind (replace_state _) fun _ => Triple.bind (hafter settle_keeps) fun _ =>
        hafter remove_pending
  refine Triple.check_bind (fun _ _ => ?_) fun reason w herror _ => ?_
  · refine Triple.seq (fun _ => At (some next.encode) (some g)) (Triple.recover
      (fun _ w => At state (some g) w ∨ At (some next.encode) (some g) w) ?_ fun reason => ?_)
      fun _ => ?_
    · refine hsteps.weaken (fun _ hw => hw) (fun _ _ hw => hw) fun stop w hw => ?_
      cases stop with
      | failure reason => exact hw
      | crash => exact ⟨hw.imp And.left And.left, Or.inl rfl⟩
    · intro w faults hw
      exact ⟨hw.imp And.left And.left, Or.inr rfl⟩
    · exact Triple.modify fun w hw => ⟨hw.1, rfl⟩
  · simp [hg, ensure] at herror

theorem openStorage_ends (w : World) : Triple (fun t => t = w) openStorage
    (fun _ t => t = w ∧ w.guard = none ∧ w.files .pending = none) fun _ t => t = w := by
  refine Triple.bind settle_keeps fun _ => Triple.load_bind fun t => ?_
  refine Triple.check_bind (fun _ hfree => ?_) fun _ _ _ ht => ht.1
  refine Triple.bind (settle_keeps.weaken (fun _ ht => ht) (fun _ _ ht => ht) fun _ _ ht => ht.1)
    fun _ => Triple.load_bind fun t' => ?_
  refine Triple.check (fun _ t'' hunmarked ht => ?_) fun _ _ _ ht => ht.1.1
  obtain ⟨⟨hw, hsame⟩, hsame'⟩ := ht
  subst hw hsame hsame'
  exact ⟨rfl, ensure_eq_ok.mp hfree, ensure_eq_ok.mp hunmarked⟩

theorem createGuard_ends (scope : ReplayScope) (capacity : ℕ) (nowUnix : U64) (w : World) :
    Triple (fun t => t = w) (createGuard scope capacity nowUnix)
      (fun _ t => (1 ≤ capacity ∧ capacity ≤ maxConfiguredEntries) ∧ w.files .pending = none ∧
        w.files .state = none ∧ At (some (ReplayState.new scope nowUnix).encode)
          (some ⟨.new scope nowUnix, capacity, false⟩) t)
      fun _ t => t = w ∨ t.guard = none ∧ (t.files .state = w.files .state ∨ w.files .state = none) := by
  refine Triple.check_bind (fun _ hcapacity => ?_) fun _ _ _ ht => Or.inl ht
  refine Triple.bind ((openStorage_ends w).weaken (fun _ ht => ht) (fun _ _ ht => ht)
    fun _ _ ht => Or.inl ht) fun _ => ?_
  intro t faults ht
  obtain ⟨rfl, hguard, hunmarked⟩ := ht
  refine Triple.seq (fun _ t' => t.files .state = none ∧
    At (some (ReplayState.new scope nowUnix).encode) none t') ((create_state _).weaken
      (fun _ h => h) (fun _ _ h => h) fun _ _ h => Or.inr h) (fun _ => ?_) t faults ⟨rfl, hguard⟩
  exact Triple.modify fun t' ht' => ⟨ensure_eq_ok.mp hcapacity, hunmarked, ht'.1, ht'.2.1, rfl⟩

theorem openGuard_ends (m : Minicbor) (scope : ReplayScope) (capacity : ℕ) (w : World) :
    Triple (fun t => t = w) (openGuard m scope capacity)
      (fun _ t => (1 ≤ capacity ∧ capacity ≤ maxConfiguredEntries) ∧ w.files .pending = none ∧
        ∃ content state, w.files .state = some content ∧
          ReplayState.decode m content capacity = .ok state ∧
          t = { w with guard := some ⟨state, capacity, false⟩ })
      fun _ t => t = w := by
  refine Triple.check_bind (fun _ hcapacity => ?_) fun _ _ _ ht => ht
  refine Triple.bind (openStorage_ends w) fun _ => ?_
  refine Triple.seq (fun content t => t = w ∧ w.files .pending = none ∧
    w.files .state = some content) ?_ fun content => ?_
  · refine Triple.bind (settle_keeps.weaken (fun _ ht => ht) (fun _ _ ht => ht)
      fun _ _ ht => ht.1) fun _ => Triple.load_bind fun t => ?_
    refine Triple.check_bind (fun content hcontent => ?_) fun _ _ _ ht => ht.1.1
    refine Triple.check_bind (fun _ _ => ?_) fun _ _ _ ht => ht.1.1
    refine Triple.pure' fun t' ht => ?_
    obtain ⟨⟨hw, -, hunmarked⟩, hsame⟩ := ht
    subst hw hsame
    exact ⟨rfl, hunmarked, okOr_eq_ok.mp hcontent⟩
  · refine Triple.check_bind (fun state hstate => ?_) fun _ _ _ ht => ht.1
    refine Triple.check_bind (fun _ _ => ?_) fun _ _ _ ht => ht.1
    refine Triple.modify fun t ht => ?_
    obtain ⟨rfl, hunmarked, hcontent⟩ := ht
    exact ⟨ensure_eq_ok.mp hcapacity, hunmarked, content, state, hcontent, hstate, rfl⟩

end Steps

section Runs

variable {m : Minicbor} {w w' : World} {g : FileReplayGuard} {scope : ReplayScope} {entry : ReplayEntry}
  {now : U64} {result : Except (Stop ProtocolError) Unit}

/-- Everything one consumption can do to the state file and the guard. -/
inductive ConsumeEnds (w : World) (g : FileReplayGuard) (scope : ReplayScope) (entry : ReplayEntry)
    (now : U64) : Except (Stop ProtocolError) Unit → World → Prop
  | refused {failure} : ConsumeEnds w g scope entry now (.error failure) w
  | committed {next w'} : g.poisoned = false →
      g.state.consume scope entry now g.capacity = .ok next →
      At (some next.encode) (some { g with state := next }) w' →
      ConsumeEnds w g scope entry now (.ok ()) w'
  | failed {next w' stop} : g.poisoned = false →
      g.state.consume scope entry now g.capacity = .ok next →
      w'.files .state = w.files .state ∨ w'.files .state = some next.encode →
      w'.guard = none ∨ w'.guard = some { g with poisoned := true } →
      ConsumeEnds w g scope entry now (.error stop) w'

theorem consumeWith_ends (hg : w.guard = some g) (faults : List Fault)
    (h : w.execute (consumeWith g fun s => s.consume scope entry now g.capacity) faults =
      (result, w')) : ConsumeEnds w g scope entry now result w' := by
  cases hpoisoned : g.poisoned with
  | true =>
      simp [World.execute, consumeWith, hpoisoned, ensure, bind_apply] at h
      obtain ⟨rfl, rfl⟩ := h
      exact .refused
  | false =>
      cases hnext : g.state.consume scope entry now g.capacity with
      | error failure =>
          simp [World.execute, consumeWith, hpoisoned, hnext, ensure, bind_apply] at h
          obtain ⟨rfl, rfl⟩ := h
          exact .refused
      | ok next =>
          have hcommit : consumeWith g (fun s => s.consume scope entry now g.capacity) = commit g next := by
            simp only [consumeWith, hpoisoned, hnext, ensure, ↓reduceIte, check_ok, pure_bind_eq]
          rw [hcommit] at h
          have hends := commit_ends hpoisoned next w faults ⟨rfl, hg⟩
          cases hvalue : (commit g next w faults).value with
          | ok u =>
              simp only [World.execute, hvalue, Prod.mk.injEq] at h
              obtain ⟨rfl, rfl⟩ := h
              exact .committed hpoisoned hnext (hends.of_ok hvalue)
          | error stop =>
              obtain ⟨hfile, hguard⟩ := hends.of_error hvalue
              cases stop with
              | crash =>
                  simp only [World.execute, hvalue, Prod.mk.injEq] at h
                  obtain ⟨rfl, rfl⟩ := h
                  exact .failed hpoisoned hnext hfile (Or.inl rfl)
              | failure reason =>
                  simp only [World.execute, hvalue, Prod.mk.injEq] at h
                  obtain ⟨rfl, rfl⟩ := h
                  exact .failed hpoisoned hnext hfile (Or.inr (hguard.resolve_left (by simp)))

/-- The content encodes a well-formed state that remembers the tokens. -/
def Stores (content : Option (List Byte)) (history : List ReplayEntry) : Prop :=
  ∃ s : ReplayState, content = some s.encode ∧ s.WellFormed ∧
    s.entries.length ≤ maxConfiguredEntries ∧ ∀ a ∈ history, s.Remembers a

/-- Once a token is spent the state file remembers all of them, and so does a guard that is still
usable, whose state is the file's. -/
structure Remembered (history : List ReplayEntry) (w : World) : Prop where
  file : history ≠ [] → Stores (w.files .state) history
  guard : ∀ g, w.guard = some g → g.capacity ≤ maxConfiguredEntries ∧ (g.poisoned = false →
    w.files .state = some g.state.encode ∧ g.state.WellFormed ∧ ∀ a ∈ history, g.state.Remembers a)

theorem stores_next {history : List ReplayEntry} {next : ReplayState}
    (h : Remembered history w) (hg : w.guard = some g) (hpoisoned : g.poisoned = false)
    (hnext : g.state.consume scope entry now g.capacity = .ok next) :
    next.WellFormed ∧ next.entries.length ≤ maxConfiguredEntries ∧
      ∀ a ∈ history ++ [entry], next.Remembers a := by
  obtain ⟨hcapacity, husable⟩ := h.guard g hg
  obtain ⟨-, hwell, hremembers⟩ := husable hpoisoned
  refine ⟨ReplayState.consume_wellFormed hwell hnext,
    (ReplayState.consume_length_le hnext).trans hcapacity, fun a ha => ?_⟩
  rcases List.mem_append.mp ha with ha | ha
  · exact ReplayState.consume_remembers hnext (hremembers a ha)
  · rw [List.mem_singleton.mp ha]
    exact ReplayState.consume_remembers_self hnext

/-- A consumption keeps what is remembered, and adds its token if it has replaced the file. -/
theorem consume_remembered {history : List ReplayEntry} (h : Remembered history w)
    (hg : w.guard = some g) (hends : ConsumeEnds w g scope entry now result w') :
    Remembered (history ++ if result = .ok () ∨ w'.files .state ≠ w.files .state then [entry] else [])
      w' := by
  cases hends with
  | refused => simpa using h
  | @committed next w' hpoisoned hnext hat =>
      obtain ⟨hwell, hlength, hremembers⟩ := stores_next h hg hpoisoned hnext
      rw [if_pos (Or.inl rfl)]
      refine ⟨fun _ => ⟨next, hat.1, hwell, hlength, hremembers⟩, fun g' hg' => ?_⟩
      rw [hat.2, Option.some.injEq] at hg'
      subst hg'
      exact ⟨(h.guard g hg).1, fun _ => ⟨hat.1, hwell, hremembers⟩⟩
  | @failed next w' stop hpoisoned hnext hfile hguard =>
      obtain ⟨hwell, hlength, hremembers⟩ := stores_next h hg hpoisoned hnext
      have hunusable : ∀ g', w'.guard = some g' → g'.capacity ≤ maxConfiguredEntries ∧
          g'.poisoned = true := by
        intro g' hg'
        rcases hguard with hnone | hpoison
        · rw [hnone] at hg'
          cases hg'
        · rw [hpoison, Option.some.injEq] at hg'
          subst hg'
          exact ⟨(h.guard g hg).1, rfl⟩
      refine ⟨fun hhistory => ?_, fun g' hg' => ⟨(hunusable g' hg').1, fun husable => ?_⟩⟩
      · by_cases hsame : w'.files .state = w.files .state
        · rw [if_neg (by simp [hsame]), List.append_nil] at hhistory ⊢
          rw [hsame]
          exact h.file hhistory
        · rw [if_pos (Or.inr hsame)]
          exact ⟨next, hfile.resolve_left hsame, hwell, hlength, hremembers⟩
      · rw [(hunusable g' hg').2] at husable
        cases husable

theorem decode_wellFormed {content : List Byte} {capacity : ℕ} {s : ReplayState}
    (h : ReplayState.decode m content capacity = .ok s) : s.WellFormed ∧ content = s.encode := by
  simp only [ReplayState.decode, bind_eq_ok, ensure_eq_ok, exists_const, pure_eq_ok,
    Except.ok.injEq, validate_eq_ok] at h
  obtain ⟨_, -, -, ⟨-, -, hwell⟩, hencode, rfl⟩ := h
  exact ⟨hwell, hencode.symm⟩

/-- What is read back is the state that was stored. -/
theorem Stores.decode {content : List Byte} {history : List ReplayEntry} {capacity : ℕ} {s : ReplayState}
    (h : Stores (some content) history) (hdecode : ReplayState.decode m content capacity = .ok s) :
    ∀ a ∈ history, s.Remembers a := by
  obtain ⟨t, hcontent, hwell, hlength, hremembers⟩ := h
  obtain rfl := Option.some.inj hcontent
  simp only [maxConfiguredEntries] at hlength
  obtain rfl := decode_encode_unique hwell (by omega) hdecode
  exact hremembers

theorem open_remembered {history : List ReplayEntry} {capacity : ℕ} {faults : List Fault}
    (h : Remembered history w)
    (hrun : w.execute (openGuard m scope capacity) faults = (result, w')) :
    Remembered history w' ∧ w'.files .state = w.files .state := by
  have hends := openGuard_ends m scope capacity w w faults rfl
  cases hvalue : (openGuard m scope capacity w faults).value with
  | ok u =>
      simp only [World.execute, hvalue, Prod.mk.injEq] at hrun
      obtain ⟨rfl, rfl⟩ := hrun
      obtain ⟨hcapacity, -, content, state, hcontent, hdecode, hstore⟩ := hends.of_ok hvalue
      rw [hstore]
      obtain ⟨hwell, hencode⟩ := decode_wellFormed hdecode
      refine ⟨⟨h.file, fun g hg => ?_⟩, rfl⟩
      obtain rfl := Option.some.inj hg
      refine ⟨hcapacity.2, fun _ => ⟨hencode ▸ hcontent, hwell, fun a ha => ?_⟩⟩
      have hstores := h.file (List.ne_nil_of_mem ha)
      rw [hcontent] at hstores
      exact hstores.decode hdecode a ha
  | error stop =>
      have hstore := hends.of_error hvalue
      cases stop with
      | failure reason =>
          simp only [World.execute, hvalue, Prod.mk.injEq] at hrun
          obtain ⟨rfl, rfl⟩ := hrun
          rw [hstore]
          exact ⟨h, rfl⟩
      | crash =>
          simp only [World.execute, hvalue, Prod.mk.injEq] at hrun
          obtain ⟨rfl, rfl⟩ := hrun
          rw [hstore]
          exact ⟨⟨h.file, fun g hg => by cases hg⟩, rfl⟩

theorem create_remembered {history : List ReplayEntry} {capacity : ℕ} {faults : List Fault}
    (h : Remembered history w)
    (hrun : w.execute (createGuard scope capacity now) faults = (result, w')) :
    Remembered history w' := by
  have hnone : w.files .state = none → history = [] := by
    intro hfile
    by_contra hhistory
    obtain ⟨s, hs, -⟩ := h.file hhistory
    rw [hfile] at hs
    cases hs
  have hclosed {t : World} (ht : t.guard = none)
      (hfile : t.files .state = w.files .state ∨ w.files .state = none) : Remembered history t := by
    refine ⟨fun hhistory => ?_, fun g hg => by rw [ht] at hg; cases hg⟩
    rcases hfile with hfile | hfile
    · rw [hfile]
      exact h.file hhistory
    · exact absurd (hnone hfile) hhistory
  have hends := createGuard_ends scope capacity now w w faults
    rfl
  cases hvalue : (createGuard scope capacity now w faults).value with
  | ok u =>
      simp only [World.execute, hvalue, Prod.mk.injEq] at hrun
      obtain ⟨rfl, rfl⟩ := hrun
      obtain ⟨hcapacity, -, hfile, hat⟩ := hends.of_ok hvalue
      obtain rfl := hnone hfile
      refine ⟨fun hhistory => absurd rfl hhistory, fun g hg => ?_⟩
      rw [hat.2, Option.some.injEq] at hg
      subst hg
      exact ⟨hcapacity.2, fun _ => ⟨hat.1, ReplayState.new_wellFormed scope now, by simp⟩⟩
  | error stop =>
      have hstore := hends.of_error hvalue
      cases stop with
      | failure reason =>
          simp only [World.execute, hvalue, Prod.mk.injEq] at hrun
          obtain ⟨rfl, rfl⟩ := hrun
          rcases hstore with hsame | hclosed'
          · rw [hsame]
            exact h
          · exact hclosed hclosed'.1 hclosed'.2
      | crash =>
          simp only [World.execute, hvalue, Prod.mk.injEq] at hrun
          obtain ⟨rfl, rfl⟩ := hrun
          refine hclosed rfl ?_
          rcases hstore with hsame | hclosed'
          · exact Or.inl (by rw [hsame])
          · exact hclosed'.2

section Events

variable {history : List ReplayEntry} {e : Event}

/-- The token a call spends, by its result and the state file. -/
private theorem spent_eq (hcall : w.call m e = some (result, w')) : World.spent m w e =
    if result = .ok () ∨ w'.files .state ≠ w.files .state then World.presented e.call else none := by
  simp only [World.spent, hcall]

private theorem consume_step (h : Remembered history w) (hg : w.guard = some g)
    (hcall : w.call m e = some (result, w')) (hpresented : World.presented e.call = some entry)
    (hends : ConsumeEnds w g scope entry now result w') :
    Remembered (history ++ (World.spent m w e).toList) w' ∧
      ∀ a ∈ history, ∀ b, World.spent m w e = some b → ¬ a.SameToken b := by
  rw [spent_eq hcall, hpresented]
  constructor
  · have hkeep := consume_remembered h hg hends
    split_ifs at hkeep ⊢ <;> exact hkeep
  · intro a ha b hb
    split_ifs at hb with hspent
    obtain rfl := Option.some.inj hb
    have hfresh {next : ReplayState} (hpoisoned : g.poisoned = false)
        (hnext : g.state.consume scope entry now g.capacity = .ok next) : ¬ a.SameToken entry :=
      ReplayState.consume_fresh hnext (((h.guard g hg).2 hpoisoned).2.2 a ha)
    cases hends with
    | refused => simp at hspent
    | committed hpoisoned hnext hat => exact hfresh hpoisoned hnext
    | failed hpoisoned hnext hfile hguard => exact hfresh hpoisoned hnext

/-- Every call keeps what is remembered and spends no token a second time. -/
theorem step_remembered (h : Remembered history w) (hstep : World.step m w e = some w') :
    Remembered (history ++ (World.spent m w e).toList) w' ∧
      ∀ a ∈ history, ∀ b, World.spent m w e = some b → ¬ a.SameToken b := by
  obtain ⟨⟨result, next⟩, hcall, rfl⟩ := Option.map_eq_some_iff.mp hstep
  have hnothing (hpresented : World.presented e.call = none) : World.spent m w e = none := by
    rw [spent_eq hcall, hpresented, ite_self]
  have hquiet (hpresented : World.presented e.call = none) (hnext : Remembered history next) :
      Remembered (history ++ (World.spent m w e).toList) next ∧
        ∀ a ∈ history, ∀ b, World.spent m w e = some b → ¬ a.SameToken b := by
    rw [hnothing hpresented]
    exact ⟨by simpa using hnext, fun _ _ _ hb => by cases hb⟩
  obtain ⟨x, hx, hrun⟩ := Option.map_eq_some_iff.mp hcall
  obtain ⟨call, faults⟩ := e
  cases call with
  | create scope capacity now =>
      obtain rfl := Option.some.inj hx
      exact hquiet rfl (create_remembered h hrun)
  | «open» scope capacity =>
      obtain rfl := Option.some.inj hx
      exact hquiet rfl (open_remembered h hrun).1
  | consumeRequest desktopId identityId requestId nonce expires now =>
      obtain ⟨g, hg, rfl⟩ := Option.map_eq_some_iff.mp hx
      exact consume_step h hg hcall rfl (consumeWith_ends hg faults hrun)
  | consumeResponse desktopId identityId digest expires now =>
      obtain ⟨g, hg, rfl⟩ := Option.map_eq_some_iff.mp hx
      exact consume_step h hg hcall rfl (consumeWith_ends hg faults hrun)
  | drop =>
      obtain rfl := Option.some.inj hx
      obtain ⟨-, rfl⟩ := Prod.mk.inj hrun
      exact hquiet rfl ⟨h.file, fun g hg => by cases hg⟩

/-- No guard is made while the marker is present. -/
theorem marked_refuses (hmarked : w.files .pending ≠ none) (scope : ReplayScope) (capacity : ℕ)
    (now : U64) (faults : List Fault) :
    (w.execute (createGuard scope capacity now) faults).1 ≠ .ok () ∧
      (w.execute (openGuard m scope capacity) faults).1 ≠ .ok () := by
  constructor
  · intro hok
    exact hmarked ((createGuard_ends _ _ _ w w faults rfl).of_ok hok).2.1
  · intro hok
    exact hmarked ((openGuard_ends _ _ _ w w faults rfl).of_ok hok).2.1

/-- After every run of creations, openings, consumptions and drops, with any faults and stops: an
opening that succeeds holds every token spent so far that is not expired, where a token is spent once
its consumption has returned normally or has replaced the state file; no token is spent twice; and no
guard is made while the marker is present. -/
theorem crash_safety (m : Minicbor) (events : List Event) (w : World)
    (hrun : Machine.run (World.step m) .empty events = some w) :
    (∀ scope capacity faults g, (w.execute (openGuard m scope capacity) faults).1 = .ok () →
      (w.execute (openGuard m scope capacity) faults).2.guard = some g →
      ∀ token ∈ Machine.emitted (World.step m) (World.spent m) .empty events,
        ∀ now, g.state.lastSeenUnix ≤ now → now ≤ token.expiresAtUnix → token ∈ g.state.entries) ∧
    (Machine.emitted (World.step m) (World.spent m) .empty events).Pairwise
      (fun a b => ¬ a.SameToken b) ∧
    (w.files .pending ≠ none → ∀ scope capacity now faults,
      (w.execute (createGuard scope capacity now) faults).1 ≠ .ok () ∧
        (w.execute (openGuard m scope capacity) faults).1 ≠ .ok ()) := by
  have hempty : Remembered [] World.empty := ⟨fun h => absurd rfl h, fun g hg => by cases hg⟩
  have hinv : ∀ (history : List ReplayEntry) s e t, Remembered history s →
      World.step m s e = some t → Remembered (history ++ (World.spent m s e).toList) t :=
    fun _ _ _ _ h hstep => (step_remembered h hstep).1
  have hfinal := Machine.run_preserves_of_history hinv hempty hrun
  refine ⟨?_, ?_, fun hmarked scope capacity now faults => marked_refuses hmarked scope capacity now faults⟩
  · intro scope capacity faults g hok hguard token htoken now hseen hlive
    have hkeep := (open_remembered (m := m) hfinal
      (Prod.mk.eta : _ = w.execute (openGuard m scope capacity) faults).symm).1
    have hends := (openGuard_ends m scope capacity w w faults rfl).of_ok
      hok
    obtain ⟨-, -, content, state, -, -, hstore⟩ := hends
    have hlast : (w.execute (openGuard m scope capacity) faults).2.guard =
        some ⟨state, capacity, false⟩ := by
      have hvalue : (openGuard m scope capacity w faults).value = .ok () := hok
      simp only [World.execute, hvalue, hstore]
    rw [hlast, Option.some.injEq] at hguard
    subst hguard
    have hremembers := ((hkeep.guard _ hlast).2 rfl).2.2 token htoken
    rcases hremembers with hmem | hexpired
    · exact hmem
    · exact absurd (hseen.trans hlive) (not_le.mpr hexpired)
  · have hclash : ∀ (history : List ReplayEntry) s e t a b, Remembered history s →
        World.step m s e = some t → a ∈ history → World.spent m s e = some b → ¬ a.SameToken b :=
      fun _ _ _ _ a b h hstep ha hb => (step_remembered h hstep).2 a ha b hb
    have hallowed : Machine.Admissible (World.step m) (World.spent m) (fun _ _ _ => True) []
        World.empty events :=
      Machine.admissible_of_forall (fun _ _ _ => trivial) [] World.empty events
    have hpairs := Machine.emitted_pairwise_of_history
      (fun history s e t _ h hstep => hinv history s e t h hstep) hclash hempty List.Pairwise.nil
      hallowed
    simpa using hpairs

/-- A response consumed at 100, with the given faults. -/
def sampleConsumption (faults : List Fault) : Event :=
  ⟨.consumeResponse (Bytes.replicate 16 1) (Bytes.replicate 16 2) (Bytes.replicate 32 3) 110 100, faults⟩

def sampleScope : ReplayScope := ⟨.desktopResponses, Bytes.replicate 16 1, Bytes.replicate 16 2⟩

/-- A commit whose last step reports a failure although it has removed the marker, a restart, and the
same response again. -/
def sampleEvents : List Event :=
  [⟨.create sampleScope 2 100, []⟩, sampleConsumption (List.replicate 16 .none ++ [.failed true]),
    ⟨.drop, []⟩, ⟨.open sampleScope 2, []⟩, sampleConsumption []]

theorem crash_safety_after_restart : ∃ w, Machine.run (World.step .definite) .empty sampleEvents = some w ∧
    Machine.emitted (World.step .definite) (World.spent .definite) .empty sampleEvents =
      [.response (Bytes.replicate 32 3) 110] ∧
    (Machine.emitted (World.step .definite) (World.spent .definite) .empty sampleEvents).Pairwise
      fun a b => ¬ a.SameToken b :=
  ⟨_, rfl, by decide +kernel, (crash_safety .definite sampleEvents _ rfl).2.1⟩

/-- A commit that stops right after the replacement leaves the marker, and the restart is refused. -/
example : (Machine.run (World.step .definite) .empty
    [⟨.create sampleScope 2 100, []⟩, sampleConsumption (List.replicate 12 .none ++ [.stopped true])]).map
      (fun w => (w.files .pending, (w.execute (openGuard .definite sampleScope 2) []).1)) =
    some (some pendingMark, .error (.failure .replayState)) := by
  decide +kernel

end Events

end Runs

end AgePluginPhone.Core.MacReplay
