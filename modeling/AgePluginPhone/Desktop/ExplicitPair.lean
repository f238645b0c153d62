import AgePluginPhone.Desktop.CleanupJournal
import AgePluginPhone.Library.Interaction

/-!
# Explicit pairing

`run_pair` on Windows and on the Unix systems other than macOS, with the steps it takes on files and
on the key set. How each step ends is left to the system.
-/

namespace AgePluginPhone.Desktop.ExplicitPair

open Library

section Queries

inductive Platform
  | windows
  | unix
  deriving DecidableEq

/-- The paths of a run; the locator's is that of the pairing to be created. -/
structure Paths where
  desktopState : PathBuf
  identityOutput : PathBuf
  replayState : PathBuf
  locator : PathBuf

inductive Output
  | desktopState
  | replayState
  | locator
  | identityStub
  deriving DecidableEq

/-- The steps that create or remove no file. -/
inductive Step
  | label
  | platformSupported
  | discoverWifi
  | resolveTransport
  | prepareTransport
  | configRoot
  | managedDesktopState
  | managedReplayState
  | selectionPublicKey
  | begin
  | exchange
  | receiveResponse
  | pendingStub
  | writeFingerprint
  | readConfirmation
  | confirm
  | clock
  | replayParent
  | locatorRecord
  | syncDirectory
  | printOutputs
  deriving DecidableEq

inductive Query
  | step (step : Step)
  | pathExists (path : PathBuf)
  | symlinkMetadata (path : PathBuf)
  | openState (path : PathBuf)
  | create (output : Output) (path : PathBuf)
  | lock (path : PathBuf)
  | remove (path : PathBuf)
  | createKeySet
  | removeKeySet
  deriving DecidableEq

/-- How a query ends: as asked, with an error for a missing file, or with another error. -/
inductive Reply
  | done
  | missing
  | failed
  deriving DecidableEq

abbrev PairM := Interaction Query fun _ => Reply

abbrev Event := Interaction.Event fun _ : Query => Reply

/-- The error of a step, or one of `run_pair` itself. -/
inductive PairError
  | passedOn (query : Query)
  | stated (message : String)
  deriving DecidableEq

abbrev Outcome := Except PairError Unit

def Step.error : Step → PairError
  | .selectionPublicKey => .stated "desktop selection key is unavailable"
  | .begin => .stated "failed to create pairing offer"
  | .receiveResponse => .stated "pairing response rejected"
  | .pendingStub => .stated "verified pairing candidate is unavailable"
  | .confirm => .stated "pairing not confirmed"
  | .clock => .stated "system clock is unavailable"
  | step => .passedOn (.step step)

end Queries

section Program

def refuse (message : String) : PairM Outcome := .done (.error (.stated message))

def attempt (query : Query) (failure rest : PairM Outcome) : PairM Outcome :=
  .ask query fun reply => if reply = .done then rest else failure

/-- Steps whose errors end the run. -/
def perform (steps : List Step) (rest : PairM Outcome) : PairM Outcome :=
  steps.foldr (fun step rest => attempt (.step step) (.done (.error step.error)) rest) rest

variable (platform : Platform) (paths : Paths)

section Rollback

def replayLockPath (path : PathBuf) : Option PathBuf := path.sidecar ".lock"

def removePrivatePairingFile (path : PathBuf) : PairM Bool :=
  .ask (.remove path) fun reply => .done (reply ≠ .failed)

def removeLocator : Option PathBuf → PairM Bool
  | some path => removePrivatePairingFile path
  | none => pure true

def removeReplayLock : PairM Bool :=
  match replayLockPath paths.replayState with
  | some lockPath => removePrivatePairingFile lockPath
  | none => pure false

def removeNewState (desktopStateCreated : Bool) : PairM Bool :=
  if desktopStateCreated then
    match platform with
    | .windows =>
        .ask .removeKeySet fun reply =>
          if reply = .done then removePrivatePairingFile paths.desktopState else pure false
    | .unix => removePrivatePairingFile paths.desktopState
  else pure true

def rollbackFailedPairing (locatorPath : Option PathBuf) (desktopStateCreated : Bool) :
    PairM Bool := do
  let locator ← removeLocator locatorPath
  let replay ← removePrivatePairingFile paths.replayState
  let lock ← removeReplayLock paths
  let state ← removeNewState platform paths desktopStateCreated
  pure (locator && replay && lock && state)

def pairingCommitError (message : String) (rolledBack : Bool) : PairError :=
  if rolledBack then
    .stated (message ++
      "; local partial state was removed, but the phone pairing must be revoked")
  else
    .stated (message ++ "; local rollback is incomplete and the phone pairing must be revoked")

def transportFailed (desktopStateCreated : Bool) : PairM Outcome := do
  let rolledBack ← rollbackFailedPairing platform paths none desktopStateCreated
  if rolledBack then pure (.error (.passedOn (.step .exchange)))
  else pure (.error (.stated "pairing transport failed and local rollback is incomplete"))

/-- The end of a commit one of whose files is not created. -/
def abandon (message : String) (locatorPath : Option PathBuf) (desktopStateCreated : Bool) :
    PairM Outcome := do
  let rolledBack ← rollbackFailedPairing platform paths locatorPath desktopStateCreated
  pure (.error (pairingCommitError message rolledBack))

end Rollback

section Commit

/-- `FileReplayGuard::create`. -/
def createReplay (failure rest : PairM Outcome) : PairM Outcome :=
  if ¬ paths.replayState.isAbsolute ∨ paths.replayState.fileName = none then failure
  else
    attempt (.step .replayParent) failure <|
    match replayLockPath paths.replayState with
    | none => failure
    | some lockPath =>
        attempt (.lock lockPath) failure <|
        match platform with
        | .windows => attempt (.create .replayState paths.replayState) failure rest
        | .unix =>
            .ask (.symlinkMetadata paths.replayState) fun reply =>
              if reply = .missing then
                attempt (.create .replayState paths.replayState) failure rest
              else failure

def createPairingLocator (failure rest : PairM Outcome) : PairM Outcome :=
  attempt (.step .locatorRecord) failure <|
  attempt (.create .locator paths.locator) failure <|
  match platform with
  | .windows => rest
  | .unix => attempt (.step .syncDirectory) failure rest

def commitPairingState (desktopStateCreated : Bool) (rest : PairM Outcome) : PairM Outcome :=
  perform [.clock] <|
  createReplay platform paths
    (abandon platform paths "failed to create durable response replay state" none
      desktopStateCreated) <|
  createPairingLocator platform paths
    (abandon platform paths "failed to create private pairing locator" none desktopStateCreated) <|
  attempt (.create .identityStub paths.identityOutput)
    (abandon platform paths "failed to create public identity stub" (some paths.locator)
      desktopStateCreated)
    rest

end Commit

def completePairingInteraction (rest : PairM Outcome) : PairM Outcome :=
  perform [.receiveResponse, .pendingStub, .writeFingerprint, .readConfirmation, .confirm] rest

/-- `run_pair` from the open state on. -/
def pairWith (desktopStateCreated : Bool) : PairM Outcome :=
  perform [.selectionPublicKey, .begin] <|
  attempt (.step .exchange) (transportFailed platform paths desktopStateCreated) <|
  completePairingInteraction <|
  commitPairingState platform paths desktopStateCreated <|
  perform [.printOutputs] <|
  .done (.ok ())

section State

def unavailable : PairM Outcome := refuse "desktop authentication state is unavailable"

/-- `open_or_create` on Unix. -/
def openOrCreate (rest : PairM Outcome) : PairM Outcome :=
  .ask (.openState paths.desktopState) fun reply =>
    match reply with
    | .done => rest
    | .missing => attempt (.create .desktopState paths.desktopState) unavailable rest
    | .failed => unavailable

def stateRetained : PairM Outcome :=
  refuse "desktop authentication state is unavailable; partial state must be retained"

/-- `create_new` on Windows. -/
def createNew (rest : PairM Outcome) : PairM Outcome :=
  .ask (.pathExists paths.desktopState) fun reply =>
    if reply = .done then stateRetained
    else
      attempt .createKeySet stateRetained <|
      attempt (.create .desktopState paths.desktopState)
        (.ask .removeKeySet fun _ => stateRetained)
        rest

def routing : List Step :=
  match platform with
  | .windows => [.discoverWifi, .resolveTransport, .prepareTransport, .configRoot,
      .managedDesktopState, .managedReplayState]
  | .unix => [.discoverWifi, .resolveTransport, .configRoot]

/-- `run_pair` once it has looked for the desktop state. On Windows a new state is created after the
routing, on Unix before it. -/
def pairFrom (desktopStateExisted : Bool) : PairM Outcome :=
  match platform with
  | .windows =>
      if desktopStateExisted then
        attempt (.openState paths.desktopState) unavailable <|
        perform (routing .windows) <|
        pairWith .windows paths false
      else
        perform (routing .windows) <|
        createNew paths <|
        pairWith .windows paths true
  | .unix =>
      openOrCreate paths <|
      perform (routing .unix) <|
      pairWith .unix paths (!desktopStateExisted)

end State

def vacant (path : PathBuf) (message : String) (rest : PairM Outcome) : PairM Outcome :=
  .ask (.pathExists path) fun reply => if reply = .done then refuse message else rest

def ensurePairingOutputsAvailable (rest : PairM Outcome) : PairM Outcome :=
  vacant paths.identityOutput "identity output already exists" <|
  vacant paths.replayState "response replay state already exists" <|
  rest

def runPair : PairM Outcome :=
  perform [.label, .platformSupported] <|
  ensurePairingOutputsAvailable paths <|
  .ask (.pathExists paths.desktopState) fun existed =>
    if paths.desktopState = paths.replayState ∨ paths.desktopState = paths.identityOutput ∨
        paths.replayState = paths.identityOutput then
      refuse "pairing output paths must be distinct"
    else pairFrom platform paths (existed = .done)

end Program

section Accounts

/-- The error says that the local rollback is incomplete. -/
def PairError.ReportsIncomplete (failure : PairError) : Prop :=
  ∃ message, failure = .stated message ∧ "local rollback is incomplete".toList <:+: message.toList

/-- What is there of the new desktop state and its key set. -/
structure Left where
  desktopState : Bool
  keySet : Bool
  deriving DecidableEq

def nothing : Left := ⟨false, false⟩

def leftAfter (paths : Paths) (left : Left) : Event → Left
  | ⟨.create .desktopState _, .done⟩ => { left with desktopState := true }
  | ⟨.remove path, reply⟩ =>
      if path = paths.desktopState ∧ reply ≠ .failed then { left with desktopState := false }
      else left
  | ⟨.createKeySet, .done⟩ => { left with keySet := true }
  | ⟨.removeKeySet, .done⟩ => { left with keySet := false }
  | _ => left

def failed : Event → Bool
  | ⟨.pathExists _, reply⟩ => reply = .done
  | ⟨.symlinkMetadata _, reply⟩ => reply ≠ .missing
  | ⟨.openState _, reply⟩ => reply = .failed
  | ⟨.remove _, reply⟩ => reply = .failed
  | ⟨_, reply⟩ => reply ≠ .done

def firstFailure (events : List Event) : Option Query := (events.find? failed).map Sigma.fst

/-- The queries whose failure leads to a rollback, and those of the rollback. -/
def Query.rollsBack : Query → Bool
  | .step own => own = .exchange ∨ own = .replayParent ∨ own = .locatorRecord ∨
      own = .syncDirectory
  | .create output _ => output ≠ .desktopState
  | .symlinkMetadata _ | .lock _ | .remove _ | .removeKeySet => true
  | _ => false

variable (paths : Paths) (left : Left)

/-- An error means that the new state and key set are gone, or reports the rollback incomplete. -/
def LeavesNothing (events : List Event) (outcome : Outcome) : Prop :=
  ∀ failure, outcome = .error failure →
    events.foldl (leftAfter paths) left = nothing ∨ failure.ReportsIncomplete

def Accounted (events : List Event) (outcome : Outcome) : Prop :=
  LeavesNothing paths left events outcome ↔
    ∀ query, firstFailure events = some query → query.rollsBack = true

/-- Every run of the program is accounted for. -/
def Accounts (program : PairM Outcome) : Prop :=
  ∀ events outcome, program.Runs events outcome → Accounted paths left events outcome

/-- The creation of the desktop state. -/
def creation : Event := ⟨.create .desktopState paths.desktopState, .done⟩

/-- Every run of the program that finds no desktop state and creates one is accounted for. -/
def AccountsCreated (program : PairM Outcome) : Prop :=
  ∀ events outcome, program.Runs events outcome → creation paths ∈ events →
    ⟨.pathExists paths.desktopState, .done⟩ ∉ events → Accounted paths left events outcome

end Accounts

section Refusals

theorem message_silent {message : String}
    (h : ¬ "local rollback is incomplete".toList <:+: message.toList) :
    ¬ (PairError.stated message).ReportsIncomplete := by
  rintro ⟨stated, hstated, hpart⟩
  obtain rfl := PairError.stated.inj hstated
  exact h hpart

theorem passedOn_silent (query : Query) : ¬ (PairError.passedOn query).ReportsIncomplete := by
  rintro ⟨stated, hstated, -⟩
  cases hstated

theorem step_error_silent (step : Step) : ¬ step.error.ReportsIncomplete := by
  cases step
  case selectionPublicKey => exact message_silent (by decide +kernel)
  case begin => exact message_silent (by decide +kernel)
  case receiveResponse => exact message_silent (by decide +kernel)
  case pendingStub => exact message_silent (by decide +kernel)
  case confirm => exact message_silent (by decide +kernel)
  case clock => exact message_silent (by decide +kernel)
  all_goals exact passedOn_silent _

theorem pairingCommitError_reports (message : String) :
    (pairingCommitError message false).ReportsIncomplete := by
  refine ⟨_, rfl, message.toList ++ "; ".toList,
    " and the phone pairing must be revoked".toList, ?_⟩
  rw [String.toList_append, List.append_assoc, List.append_assoc]
  congr 1

end Refusals

section Rollback

variable {platform : Platform} {paths : Paths} {left : Left} {path : PathBuf} {complete : Bool}
  {events : List Event}

theorem runs_remove_iff : (removePrivatePairingFile path).Runs events complete ↔
    ∃ reply, events = [⟨.remove path, reply⟩] ∧ complete = (reply ≠ .failed : Bool) := by
  unfold removePrivatePairingFile
  rw [Interaction.runs_ask_iff]
  simp only [Interaction.runs_done_iff]
  constructor
  · rintro ⟨reply, rest, rfl, rfl, rfl⟩
    exact ⟨reply, rfl, rfl⟩
  · rintro ⟨reply, rfl, rfl⟩
    exact ⟨reply, [], rfl, rfl, rfl⟩

def IsRemoval (event : Event) : Prop := ∃ path, event.1 = .remove path

theorem leftAfter_keySet {event : Event} (h : IsRemoval event) :
    (leftAfter paths left event).keySet = left.keySet := by
  obtain ⟨query, reply⟩ := event
  obtain ⟨path, rfl⟩ := h
  unfold leftAfter
  dsimp only
  split_ifs
  · rfl
  · rfl

theorem foldl_keySet (h : ∀ event ∈ events, IsRemoval event) :
    (events.foldl (leftAfter paths) left).keySet = left.keySet := by
  induction events generalizing left with
  | nil => rfl
  | cons event events ih =>
      rw [List.foldl_cons, ih fun other hother => h other (List.mem_cons_of_mem _ hother)]
      exact leftAfter_keySet (h event List.mem_cons_self)

/-- A removal of the desktop state that does not fail leaves none. -/
theorem leftAfter_remove {reply : Reply} (h : reply ≠ .failed) :
    leftAfter paths left ⟨.remove paths.desktopState, reply⟩ =
      { left with desktopState := false } :=
  if_pos ⟨rfl, h⟩

theorem removal_of_runs {removed : Bool} (h : (removePrivatePairingFile path).Runs events removed) :
    ∀ event ∈ events, IsRemoval event := by
  obtain ⟨reply, rfl, -⟩ := runs_remove_iff.mp h
  simp [IsRemoval]

/-- The removals before that of the desktop state. -/
theorem runs_rollback {locatorPath : Option PathBuf} {created : Bool}
    (h : (rollbackFailedPairing platform paths locatorPath created).Runs events complete) :
    ∃ removals rest sofar state, events = removals ++ rest ∧ (∀ event ∈ removals, IsRemoval event) ∧
      (removeNewState platform paths created).Runs rest state ∧ complete = (sofar && state) := by
  unfold rollbackFailedPairing at h
  obtain ⟨first, locator, _, hfirst, hreplay, rfl⟩ := Interaction.runs_bind_iff.mp h
  obtain ⟨second, replay, _, hsecond, hlock, rfl⟩ := Interaction.runs_bind_iff.mp hreplay
  obtain ⟨third, lock, _, hthird, hstate, rfl⟩ := Interaction.runs_bind_iff.mp hlock
  obtain ⟨fourth, state, last, hfourth, hlast, rfl⟩ := Interaction.runs_bind_iff.mp hstate
  obtain ⟨rfl, rfl⟩ := Interaction.runs_pure_iff.mp hlast
  refine ⟨first ++ (second ++ third), fourth, _, state, by simp, ?_, hfourth, rfl⟩
  have hlocator : ∀ event ∈ first, IsRemoval event := by
    cases locatorPath with
    | none =>
        obtain ⟨rfl, -⟩ := Interaction.runs_pure_iff.mp hfirst
        simp
    | some path => exact removal_of_runs hfirst
  have hlock : ∀ event ∈ third, IsRemoval event := by
    unfold removeReplayLock at hthird
    split at hthird
    · exact removal_of_runs hthird
    · obtain ⟨rfl, -⟩ := Interaction.runs_pure_iff.mp hthird
      simp
  intro event hevent
  rcases List.mem_append.mp hevent with hmem | hmem
  · exact hlocator event hmem
  · rcases List.mem_append.mp hmem with hmem | hmem
    · exact removal_of_runs hsecond event hmem
    · exact hlock event hmem

theorem foldl_removed (hkeys : left.keySet = false)
    (h : (removePrivatePairingFile paths.desktopState).Runs events true) :
    events.foldl (leftAfter paths) left = nothing := by
  obtain ⟨reply, rfl, hremoved⟩ := runs_remove_iff.mp h
  rw [List.foldl_cons, leftAfter_remove (by simpa using hremoved), hkeys]
  rfl

/-- A rollback that is complete leaves neither the new state nor its key set. -/
theorem rollback_complete {locatorPath : Option PathBuf}
    (hkeys : platform = .unix → left.keySet = false)
    (h : (rollbackFailedPairing platform paths locatorPath true).Runs events true) :
    events.foldl (leftAfter paths) left = nothing := by
  obtain ⟨removals, rest, sofar, state, rfl, hremovals, hrest, hall⟩ := runs_rollback h
  obtain rfl : state = true := (Bool.and_eq_true_iff.mp hall.symm).2
  have hkept : (removals.foldl (leftAfter paths) left).keySet = left.keySet :=
    foldl_keySet hremovals
  rw [List.foldl_append]
  unfold removeNewState at hrest
  rw [if_pos rfl] at hrest
  cases platform with
  | windows =>
      obtain ⟨reply, rest, rfl, hstate⟩ := Interaction.runs_ask_iff.mp hrest
      by_cases hdone : reply = .done
      · rw [if_pos hdone] at hstate
        subst hdone
        rw [List.foldl_cons]
        exact foldl_removed rfl hstate
      · rw [if_neg hdone] at hstate
        obtain ⟨-, hfalse⟩ := Interaction.runs_pure_iff.mp hstate
        cases hfalse
  | unix => exact foldl_removed (hkept.trans (hkeys rfl)) hrest

theorem rollback_queries {locatorPath : Option PathBuf} {created : Bool}
    (h : (rollbackFailedPairing platform paths locatorPath created).Runs events complete) :
    ∀ event ∈ events, event.1.rollsBack = true := by
  obtain ⟨removals, rest, sofar, state, rfl, hremovals, hrest, -⟩ := runs_rollback h
  have hremoval : ∀ event : Event, IsRemoval event → event.1.rollsBack = true := by
    rintro ⟨query, reply⟩ ⟨path, rfl⟩
    rfl
  intro event hevent
  rcases List.mem_append.mp hevent with hmem | hmem
  · exact hremoval event (hremovals event hmem)
  · unfold removeNewState at hrest
    split at hrest
    · split at hrest
      · obtain ⟨reply, rest, rfl, hstate⟩ := Interaction.runs_ask_iff.mp hrest
        rcases List.mem_cons.mp hmem with rfl | hmem
        · rfl
        · split at hstate
          · exact hremoval event (removal_of_runs hstate event hmem)
          · obtain ⟨rfl, -⟩ := Interaction.runs_pure_iff.mp hstate
            cases hmem
      · exact hremoval event (removal_of_runs hrest event hmem)
    · obtain ⟨rfl, -⟩ := Interaction.runs_pure_iff.mp hrest
      cases hmem

/-- A program that ends in a rollback, which is complete or reported not to be. -/
structure RollsBack (platform : Platform) (paths : Paths) (program : PairM Outcome) : Prop where
  leavesNothing : ∀ left events outcome, (platform = .unix → left.keySet = false) →
    program.Runs events outcome → LeavesNothing paths left events outcome
  queries : ∀ events outcome, program.Runs events outcome →
    ∀ event ∈ events, event.1.rollsBack = true

theorem runs_transportFailed {created : Bool} {outcome : Outcome}
    (h : (transportFailed platform paths created).Runs events outcome) :
    ∃ rolledBack, (rollbackFailedPairing platform paths none created).Runs events rolledBack ∧
      outcome = .error (if rolledBack then .passedOn (.step .exchange)
        else .stated "pairing transport failed and local rollback is incomplete") := by
  unfold transportFailed at h
  obtain ⟨own, rolledBack, others, hown, hothers, rfl⟩ := Interaction.runs_bind_iff.mp h
  cases rolledBack with
  | true =>
      obtain ⟨rfl, rfl⟩ := Interaction.runs_pure_iff.mp hothers
      rw [List.append_nil]
      exact ⟨true, hown, rfl⟩
  | false =>
      obtain ⟨rfl, rfl⟩ := Interaction.runs_pure_iff.mp hothers
      rw [List.append_nil]
      exact ⟨false, hown, rfl⟩

theorem transportFailed_rollsBack :
    RollsBack platform paths (transportFailed platform paths true) := by
  constructor
  · intro left events outcome hkeys h failure hfailure
    obtain ⟨rolledBack, hown, rfl⟩ := runs_transportFailed h
    obtain rfl := Except.error.inj hfailure
    cases rolledBack with
    | true => exact Or.inl (rollback_complete hkeys hown)
    | false => exact Or.inr ⟨_, rfl, by decide +kernel⟩
  · intro events outcome h
    obtain ⟨rolledBack, hown, -⟩ := runs_transportFailed h
    exact rollback_queries hown

theorem runs_abandon {message : String} {locatorPath : Option PathBuf} {created : Bool}
    {outcome : Outcome}
    (h : (abandon platform paths message locatorPath created).Runs events outcome) :
    ∃ rolledBack,
      (rollbackFailedPairing platform paths locatorPath created).Runs events rolledBack ∧
      outcome = .error (pairingCommitError message rolledBack) := by
  unfold abandon at h
  obtain ⟨own, rolledBack, others, hown, hothers, rfl⟩ := Interaction.runs_bind_iff.mp h
  obtain ⟨rfl, rfl⟩ := Interaction.runs_pure_iff.mp hothers
  rw [List.append_nil]
  exact ⟨rolledBack, hown, rfl⟩

theorem abandon_rollsBack (message : String) (locatorPath : Option PathBuf) :
    RollsBack platform paths (abandon platform paths message locatorPath true) := by
  constructor
  · intro left events outcome hkeys h failure hfailure
    obtain ⟨rolledBack, hown, rfl⟩ := runs_abandon h
    obtain rfl := Except.error.inj hfailure
    cases rolledBack with
    | true => exact Or.inl (rollback_complete hkeys hown)
    | false => exact Or.inr (pairingCommitError_reports message)
  · intro events outcome h
    obtain ⟨rolledBack, hown, -⟩ := runs_abandon h
    exact rollback_queries hown

end Rollback

section Accounting

variable {platform : Platform} {paths : Paths} {left : Left} {event : Event} {events : List Event}
  {query : Query} {failure rest : PairM Outcome} {outcome : Outcome}

theorem firstFailure_cons : firstFailure (event :: events) =
    if failed event then some event.1 else firstFailure events := by
  cases h : failed event <;> simp [firstFailure, h]

theorem exists_of_firstFailure (h : firstFailure events = some query) :
    ∃ event ∈ events, event.1 = query := by
  obtain ⟨event, hfind, rfl⟩ := Option.map_eq_some_iff.mp h
  exact ⟨event, List.mem_of_find?_eq_some hfind, rfl⟩

theorem accounted_passed (h : failed event = false) :
    Accounted paths left (event :: events) outcome ↔
      Accounted paths (leftAfter paths left event) events outcome := by
  rw [Accounted, Accounted, LeavesNothing, LeavesNothing, firstFailure_cons, h, List.foldl_cons]
  rfl

theorem accounted_failed (h : failed event = true) :
    Accounted paths left (event :: events) outcome ↔
      (LeavesNothing paths (leftAfter paths left event) events outcome ↔
        event.1.rollsBack = true) := by
  rw [Accounted, LeavesNothing, LeavesNothing, firstFailure_cons, h, if_pos rfl, List.foldl_cons]
  simp only [Option.some.injEq, forall_eq']

theorem runs_attempt (h : (attempt query failure rest).Runs events outcome) :
    ∃ reply after, events = ⟨query, reply⟩ :: after ∧
      ((reply = .done ∧ rest.Runs after outcome) ∨
        (reply ≠ .done ∧ failure.Runs after outcome)) := by
  obtain ⟨reply, after, rfl, hafter⟩ := Interaction.runs_ask_iff.mp h
  by_cases hdone : reply = .done
  · rw [if_pos hdone] at hafter
    exact ⟨reply, after, rfl, Or.inl ⟨hdone, hafter⟩⟩
  · rw [if_neg hdone] at hafter
    exact ⟨reply, after, rfl, Or.inr ⟨hdone, hafter⟩⟩

/-- A query that fails exactly when it is not done, and leaves the new state and key set alone. -/
structure Query.Plain (query : Query) : Prop where
  failed_iff : ∀ reply, failed ⟨query, reply⟩ = true ↔ reply ≠ .done
  leftAfter_eq : ∀ paths left reply, leftAfter paths left ⟨query, reply⟩ = left

theorem plain_step (step : Step) : (Query.step step).Plain := by
  constructor
  · intro reply
    exact decide_eq_true_iff
  · intro paths left reply
    rfl

theorem plain_lock (path : PathBuf) : (Query.lock path).Plain := by
  constructor
  · intro reply
    exact decide_eq_true_iff
  · intro paths left reply
    rfl

theorem plain_create {output : Output} (path : PathBuf) (h : output ≠ .desktopState) :
    (Query.create output path).Plain := by
  constructor
  · intro reply
    exact decide_eq_true_iff
  · intro paths left reply
    cases output with
    | desktopState => exact absurd rfl h
    | replayState => rfl
    | locator => rfl
    | identityStub => rfl

theorem Query.Plain.passed (h : query.Plain) : failed ⟨query, .done⟩ = false := by
  rw [← Bool.not_eq_true, h.failed_iff]
  simp

theorem accounts_ok : Accounts paths left (.done (.ok ())) := by
  intro events outcome h
  obtain ⟨rfl, rfl⟩ := Interaction.runs_done_iff.mp h
  apply iff_of_true
  · intro failure hfailure
    cases hfailure
  · intro query hquery
    cases hquery

/-- A step whose error ends the run leaves the new state. -/
theorem accounts_perform {steps : List Step} (hstate : left.desktopState = true)
    (hsteps : ∀ step ∈ steps, (Query.step step).rollsBack = false)
    (hrest : Accounts paths left rest) :
    Accounts paths left (perform steps rest) := by
  induction steps with
  | nil => exact hrest
  | cons step steps ih =>
      obtain ⟨hstep, hsteps⟩ := List.forall_mem_cons.mp hsteps
      intro events outcome h
      obtain ⟨reply, after, rfl, ⟨rfl, hafter⟩ | ⟨hreply, hafter⟩⟩ := runs_attempt h
      · rw [accounted_passed rfl]
        exact ih hsteps after outcome hafter
      · rw [accounted_failed ((plain_step step).failed_iff reply |>.mpr hreply)]
        obtain ⟨rfl, rfl⟩ := Interaction.runs_done_iff.mp hafter
        apply iff_of_false
        · intro hleaves
          rcases hleaves step.error rfl with hgone | hreported
          · have hnone : left.desktopState = false := congrArg Left.desktopState hgone
            rw [hstate] at hnone
            cases hnone
          · exact step_error_silent step hreported
        · rw [hstep]
          exact Bool.false_ne_true

theorem RollsBack.accounts (h : RollsBack platform paths failure)
    (hkeys : platform = .unix → left.keySet = false) : Accounts paths left failure := by
  intro events outcome hruns
  apply iff_of_true (h.leavesNothing left events outcome hkeys hruns)
  intro query hquery
  obtain ⟨event, hmem, rfl⟩ := exists_of_firstFailure hquery
  exact h.queries events outcome hruns event hmem

theorem accounts_attempt (hquery : query.Plain) (hrolls : query.rollsBack = true)
    (hfailure : RollsBack platform paths failure) (hkeys : platform = .unix → left.keySet = false)
    (hrest : Accounts paths left rest) : Accounts paths left (attempt query failure rest) := by
  intro events outcome h
  obtain ⟨reply, after, rfl, ⟨rfl, hafter⟩ | ⟨hreply, hafter⟩⟩ := runs_attempt h
  · rw [accounted_passed hquery.passed, hquery.leftAfter_eq]
    exact hrest after outcome hafter
  · rw [accounted_failed ((hquery.failed_iff reply).mpr hreply), hquery.leftAfter_eq]
    exact iff_of_true (hfailure.leavesNothing left after outcome hkeys hafter) hrolls

theorem accounts_createReplay (hfailure : RollsBack platform paths failure)
    (hkeys : platform = .unix → left.keySet = false) (hrest : Accounts paths left rest) :
    Accounts paths left (createReplay platform paths failure rest) := by
  have hcreate : Accounts paths left
      (attempt (.create .replayState paths.replayState) failure rest) :=
    accounts_attempt (plain_create _ (by decide)) rfl hfailure hkeys hrest
  unfold createReplay
  split_ifs
  · exact hfailure.accounts hkeys
  · apply accounts_attempt (plain_step _) rfl hfailure hkeys
    split
    · exact hfailure.accounts hkeys
    · apply accounts_attempt (plain_lock _) rfl hfailure hkeys
      split
      · exact hcreate
      · intro events outcome h
        obtain ⟨reply, after, rfl, hafter⟩ := Interaction.runs_ask_iff.mp h
        by_cases hmissing : reply = .missing
        · rw [if_pos hmissing] at hafter
          subst hmissing
          rw [accounted_passed rfl]
          exact hcreate after outcome hafter
        · rw [if_neg hmissing] at hafter
          have hfailed : failed ⟨.symlinkMetadata paths.replayState, reply⟩ = true :=
            decide_eq_true hmissing
          rw [accounted_failed hfailed]
          exact iff_of_true (hfailure.leavesNothing _ after outcome hkeys hafter) rfl

theorem accounts_createPairingLocator (hfailure : RollsBack platform paths failure)
    (hkeys : platform = .unix → left.keySet = false) (hrest : Accounts paths left rest) :
    Accounts paths left (createPairingLocator platform paths failure rest) := by
  apply accounts_attempt (plain_step _) rfl hfailure hkeys
  apply accounts_attempt (plain_create _ (by decide)) rfl hfailure hkeys
  split
  · exact hrest
  · exact accounts_attempt (plain_step _) rfl hfailure hkeys hrest

/-- Once the new state is there, a run accounts for it if and only if its first failure rolls
back. -/
theorem accounts_pairWith (hstate : left.desktopState = true)
    (hkeys : platform = .unix → left.keySet = false) :
    Accounts paths left (pairWith platform paths true) := by
  apply accounts_perform hstate (by decide)
  apply accounts_attempt (plain_step _) rfl transportFailed_rollsBack hkeys
  apply accounts_perform hstate (by decide)
  apply accounts_perform hstate (by decide)
  apply accounts_createReplay (abandon_rollsBack _ _) hkeys
  apply accounts_createPairingLocator (abandon_rollsBack _ _) hkeys
  apply accounts_attempt (plain_create _ (by decide)) rfl (abandon_rollsBack _ _) hkeys
  exact accounts_perform hstate (by decide) accounts_ok

end Accounting

section Guarded

variable {guarded : Query → Prop} {permit : Event → Prop} {platform : Platform} {paths : Paths}
  {query : Query} {failure rest : PairM Outcome} {created : Bool}

theorem permitted_attempt (hquery : ¬ guarded query)
    (hfailure : ∀ reply, reply ≠ .done → ¬ permit ⟨query, reply⟩ →
      Interaction.Permitted guarded permit failure)
    (hrest : ¬ permit ⟨query, .done⟩ → Interaction.Permitted guarded permit rest) :
    Interaction.Permitted guarded permit (attempt query failure rest) := by
  refine .ask hquery fun reply hreply => ?_
  by_cases hdone : reply = .done
  · rw [if_pos hdone]
    subst hdone
    exact hrest hreply
  · rw [if_neg hdone]
    exact hfailure reply hdone hreply

theorem permitted_perform (hsteps : ∀ step, ¬ guarded (.step step)) (steps : List Step)
    (hrest : Interaction.Permitted guarded permit rest) :
    Interaction.Permitted guarded permit (perform steps rest) := by
  induction steps with
  | nil => exact hrest
  | cons step steps ih => exact permitted_attempt (hsteps step) (fun _ _ _ => .done _) fun _ => ih

/-- The queries of a commit and of the steps before it are not guarded. -/
structure Unguarded (guarded : Query → Prop) : Prop where
  step : ∀ step, ¬ guarded (.step step)
  lock : ∀ path, ¬ guarded (.lock path)
  symlinkMetadata : ∀ path, ¬ guarded (.symlinkMetadata path)
  create : ∀ output path, output ≠ .desktopState → ¬ guarded (.create output path)

theorem permitted_createReplay (h : Unguarded guarded)
    (hfailure : Interaction.Permitted guarded permit failure)
    (hrest : Interaction.Permitted guarded permit rest) :
    Interaction.Permitted guarded permit (createReplay platform paths failure rest) := by
  have hcreate : Interaction.Permitted guarded permit
      (attempt (.create .replayState paths.replayState) failure rest) :=
    permitted_attempt (h.create _ _ (by decide)) (fun _ _ _ => hfailure) fun _ => hrest
  unfold createReplay
  split_ifs
  · exact hfailure
  · apply permitted_attempt (h.step _) (fun _ _ _ => hfailure)
    intro _
    split
    · exact hfailure
    · apply permitted_attempt (h.lock _) (fun _ _ _ => hfailure)
      intro _
      split
      · exact hcreate
      · refine .ask (h.symlinkMetadata _) fun reply _ => ?_
        split_ifs
        · exact hcreate
        · exact hfailure

theorem permitted_transportFailed
    (h : Interaction.Permitted guarded permit (rollbackFailedPairing platform paths none created)) :
    Interaction.Permitted guarded permit (transportFailed platform paths created) := by
  apply h.bind
  intro rolledBack
  cases rolledBack with
  | true => exact .done _
  | false => exact .done _

theorem permitted_abandon (message : String) {locatorPath : Option PathBuf}
    (h : Interaction.Permitted guarded permit
      (rollbackFailedPairing platform paths locatorPath created)) :
    Interaction.Permitted guarded permit (abandon platform paths message locatorPath created) := by
  apply h.bind
  intro rolledBack
  exact .done _

/-- A run from the open state on asks no guarded query if its rollbacks do not. -/
theorem permitted_pairWith (h : Unguarded guarded)
    (hrollback : Interaction.Permitted guarded permit
      (rollbackFailedPairing platform paths none created))
    (hlocator : ¬ permit ⟨.create .locator paths.locator, .done⟩ →
      Interaction.Permitted guarded permit
        (rollbackFailedPairing platform paths (some paths.locator) created)) :
    Interaction.Permitted guarded permit (pairWith platform paths created) := by
  apply permitted_perform h.step
  apply permitted_attempt (h.step _) fun _ _ _ => permitted_transportFailed hrollback
  intro _
  apply permitted_perform h.step
  apply permitted_perform h.step
  apply permitted_createReplay h (permitted_abandon _ hrollback)
  apply permitted_attempt (h.step _) fun _ _ _ => permitted_abandon _ hrollback
  intro _
  apply permitted_attempt (h.create _ _ (by decide)) fun _ _ _ => permitted_abandon _ hrollback
  intro hpermit
  have hstub : Interaction.Permitted guarded permit
      (attempt (.create .identityStub paths.identityOutput)
        (abandon platform paths "failed to create public identity stub" (some paths.locator)
          created)
        (perform [.printOutputs] (.done (.ok ())))) := by
    apply permitted_attempt (h.create _ _ (by decide))
    · intro _ _ _
      exact permitted_abandon _ (hlocator hpermit)
    · intro _
      exact permitted_perform h.step _ (.done _)
  split
  · exact hstub
  · exact permitted_attempt (h.step _) (fun _ _ _ => permitted_abandon _ hrollback) fun _ => hstub

theorem permitted_removal {path : PathBuf} (h : ¬ guarded (.remove path)) :
    Interaction.Permitted guarded permit (removePrivatePairingFile path) :=
  .ask h fun _ _ => .done _

/-- A rollback asks no guarded query if it removes nothing that is guarded. -/
theorem permitted_rollback {locatorPath : Option PathBuf}
    (hlocator : ∀ path, locatorPath = some path → ¬ guarded (.remove path))
    (hreplay : ¬ guarded (.remove paths.replayState))
    (hlock : ∀ path, replayLockPath paths.replayState = some path → ¬ guarded (.remove path))
    (hkeys : ¬ guarded .removeKeySet)
    (hstate : created = true → ¬ guarded (.remove paths.desktopState)) :
    Interaction.Permitted guarded permit
      (rollbackFailedPairing platform paths locatorPath created) := by
  have hfirst : Interaction.Permitted guarded permit (removeLocator locatorPath) := by
    cases locatorPath with
    | none => exact .done _
    | some path => exact permitted_removal (hlocator path rfl)
  have hthird : Interaction.Permitted guarded permit (removeReplayLock paths) := by
    unfold removeReplayLock
    split
    · next path hpath => exact permitted_removal (hlock path hpath)
    · exact .done _
  have hfourth : Interaction.Permitted guarded permit (removeNewState platform paths created) := by
    unfold removeNewState
    split_ifs with hcreated
    · split
      · refine .ask hkeys fun reply _ => ?_
        split_ifs
        · exact permitted_removal (hstate hcreated)
        · exact .done _
      · exact permitted_removal (hstate hcreated)
    · exact .done _
  apply hfirst.bind
  intro locator
  apply (permitted_removal hreplay).bind
  intro replay
  apply hthird.bind
  intro lock
  apply hfourth.bind
  intro state
  exact .done _

end Guarded

section Creation

variable {platform : Platform} {paths : Paths} {left : Left} {event : Event} {events : List Event}
  {rest : PairM Outcome} {outcome : Outcome}

theorem not_created_pairWith {created : Bool}
    (h : (pairWith platform paths created).Runs events outcome) : creation paths ∉ events := by
  intro hmem
  obtain ⟨before, after, rfl⟩ := List.append_of_mem hmem
  have hunguarded : Unguarded (· = (creation paths).1) := by
    constructor
    · intro step heq
      cases heq
    · intro path heq
      cases heq
    · intro path heq
      cases heq
    · intro output path houtput heq
      cases heq
      exact houtput rfl
  have hremove : ∀ path, ¬ Query.remove path = (creation paths).1 := by
    intro path heq
    cases heq
  have hrollback : ∀ locatorPath, Interaction.Permitted (· = (creation paths).1) (fun _ => False)
      (rollbackFailedPairing platform paths locatorPath created) := by
    intro locatorPath
    apply permitted_rollback (fun path _ => hremove path) (hremove _) (fun path _ => hremove path)
    · intro heq
      cases heq
    · intro _
      exact hremove _
  obtain ⟨_, _, hfalse⟩ := (permitted_pairWith hunguarded (hrollback none)
    fun _ => hrollback _).exists_permit h rfl
  exact hfalse

theorem created_perform (steps : List Step) (hrest : AccountsCreated paths left rest) :
    AccountsCreated paths left (perform steps rest) := by
  induction steps with
  | nil => exact hrest
  | cons step steps ih =>
      intro events outcome h hcreated hnew
      obtain ⟨reply, after, rfl, ⟨rfl, hafter⟩ | ⟨-, hafter⟩⟩ := runs_attempt h
      · rw [accounted_passed rfl]
        apply ih after outcome hafter
        · simpa [creation] using hcreated
        · exact fun hmem => hnew (List.mem_cons_of_mem _ hmem)
      · obtain ⟨rfl, -⟩ := Interaction.runs_done_iff.mp hafter
        simp [creation] at hcreated

theorem created_passed (hevent : event ≠ creation paths) (hfailed : failed event = false)
    (hleft : leftAfter paths left event = left)
    (hcreated : creation paths ∈ event :: events)
    (hnew : ⟨.pathExists paths.desktopState, .done⟩ ∉ event :: events)
    (hrest : AccountsCreated paths left rest) (h : rest.Runs events outcome) :
    Accounted paths left (event :: events) outcome := by
  rw [accounted_passed hfailed, hleft]
  apply hrest events outcome h
  · rcases List.mem_cons.mp hcreated with rfl | hmem
    · exact absurd rfl hevent
    · exact hmem
  · exact fun hmem => hnew (List.mem_cons_of_mem _ hmem)

theorem pathExists_passed {path : PathBuf} {reply : Reply} (h : reply ≠ .done) :
    failed ⟨.pathExists path, reply⟩ = false :=
  decide_eq_false h

theorem created_vacant {path : PathBuf} {message : String}
    (hrest : AccountsCreated paths left rest) :
    AccountsCreated paths left (vacant path message rest) := by
  intro events outcome h hcreated hnew
  obtain ⟨reply, after, rfl, hafter⟩ := Interaction.runs_ask_iff.mp h
  by_cases hdone : reply = .done
  · rw [if_pos hdone] at hafter
    obtain ⟨rfl, -⟩ := Interaction.runs_done_iff.mp hafter
    simp [creation] at hcreated
  · rw [if_neg hdone] at hafter
    exact created_passed (by simp [creation]) (pathExists_passed hdone) rfl hcreated hnew hrest
      hafter

/-- A program goes on from the creation of the desktop state. -/
theorem created_attempt {failure : PairM Outcome}
    (hfailure : ∀ events outcome, failure.Runs events outcome → creation paths ∉ events)
    (hrest : Accounts paths { left with desktopState := true } rest) :
    AccountsCreated paths left
      (attempt (.create .desktopState paths.desktopState) failure rest) := by
  intro events outcome h hcreated hnew
  obtain ⟨reply, after, rfl, ⟨rfl, hafter⟩ | ⟨hreply, hafter⟩⟩ := runs_attempt h
  · rw [accounted_passed rfl]
    exact hrest after outcome hafter
  · rcases List.mem_cons.mp hcreated with heq | hmem
    · cases heq
      exact absurd rfl hreply
    · exact absurd hmem (hfailure after outcome hafter)

theorem not_created_done {result : Outcome}
    (h : Interaction.Runs (.done result : PairM Outcome) events outcome) :
    creation paths ∉ events := by
  obtain ⟨rfl, -⟩ := Interaction.runs_done_iff.mp h
  simp

theorem not_created_perform {steps : List Step}
    (hrest : ∀ events outcome, rest.Runs events outcome → creation paths ∉ events)
    (h : (perform steps rest).Runs events outcome) : creation paths ∉ events := by
  induction steps generalizing events with
  | nil => exact hrest events outcome h
  | cons step steps ih =>
      obtain ⟨reply, after, rfl, ⟨-, hafter⟩ | ⟨-, hafter⟩⟩ := runs_attempt h
      · simpa [creation] using ih hafter
      · have hnone : creation paths ∉ after := not_created_done hafter
        simpa [creation] using hnone

theorem created_openOrCreate
    (hnone : ∀ events outcome, rest.Runs events outcome → creation paths ∉ events)
    (hrest : Accounts paths { left with desktopState := true } rest) :
    AccountsCreated paths left (openOrCreate paths rest) := by
  intro events outcome h hcreated hnew
  obtain ⟨reply, after, rfl, hafter⟩ := Interaction.runs_ask_iff.mp h
  cases reply with
  | done =>
      rcases List.mem_cons.mp hcreated with heq | hmem
      · cases heq
      · exact absurd hmem (hnone after outcome hafter)
  | missing =>
      apply created_passed (by simp [creation]) rfl rfl hcreated hnew _ hafter
      exact created_attempt (fun events outcome => not_created_done) hrest
  | failed =>
      obtain ⟨rfl, -⟩ := Interaction.runs_done_iff.mp hafter
      simp [creation] at hcreated

theorem created_createNew (hrest : Accounts paths ⟨true, true⟩ rest) :
    AccountsCreated paths nothing (createNew paths rest) := by
  intro events outcome h hcreated hnew
  obtain ⟨reply, after, rfl, hafter⟩ := Interaction.runs_ask_iff.mp h
  by_cases hdone : reply = .done
  · subst hdone
    exact absurd List.mem_cons_self hnew
  · rw [if_neg hdone] at hafter
    apply created_passed (by simp [creation]) (pathExists_passed hdone) rfl hcreated hnew _ hafter
    intro events outcome h hcreated hnew
    obtain ⟨reply, after, rfl, ⟨rfl, hafter⟩ | ⟨-, hafter⟩⟩ := runs_attempt h
    · rw [accounted_passed rfl]
      apply created_attempt _ hrest after outcome hafter
      · simpa [creation] using hcreated
      · exact fun hmem => hnew (List.mem_cons_of_mem _ hmem)
      · intro events outcome hruns
        obtain ⟨reply, rest, rfl, hrest⟩ := Interaction.runs_ask_iff.mp hruns
        have hnone : creation paths ∉ rest := not_created_done hrest
        simpa [creation] using hnone
    · obtain ⟨rfl, -⟩ := Interaction.runs_done_iff.mp hafter
      simp [creation] at hcreated

theorem created_pairFrom : AccountsCreated paths nothing (pairFrom platform paths false) := by
  unfold pairFrom
  cases platform with
  | windows =>
      apply created_perform
      apply created_createNew
      exact accounts_pairWith rfl fun h => by cases h
  | unix =>
      apply created_openOrCreate
      · intro events outcome h
        exact not_created_perform (fun _ _ => not_created_pairWith) h
      · apply accounts_perform rfl (by decide)
        exact accounts_pairWith rfl fun _ => rfl

/-- A run of `run_pair` that finds no desktop state and creates one, and fails, leaves neither the
state nor its key set or says that the rollback is incomplete, if and only if the first of its
queries that fails leads to a rollback. -/
theorem new_state_accounted_iff {platform : Platform} {paths : Paths} {events : List Event}
    {outcome : Outcome} (h : (runPair platform paths).Runs events outcome)
    (hcreated : creation paths ∈ events)
    (hnew : ⟨.pathExists paths.desktopState, .done⟩ ∉ events) :
    LeavesNothing paths nothing events outcome ↔
      ∀ query, firstFailure events = some query → query.rollsBack = true := by
  have hpair : AccountsCreated paths nothing (runPair platform paths) := by
    apply created_perform
    apply created_vacant
    apply created_vacant
    intro events outcome h hcreated hnew
    obtain ⟨reply, after, rfl, hafter⟩ := Interaction.runs_ask_iff.mp h
    by_cases hdone : reply = .done
    · subst hdone
      exact absurd List.mem_cons_self hnew
    · split_ifs at hafter with hpaths
      · obtain ⟨rfl, -⟩ := Interaction.runs_done_iff.mp hafter
        simp [creation] at hcreated
      · rw [decide_eq_false hdone] at hafter
        exact created_passed (by simp [creation]) (pathExists_passed hdone) rfl hcreated hnew
          created_pairFrom hafter
  exact hpair events outcome h hcreated hnew

section Sample

def sampleRoot : PathBuf := ⟨some "/", [.normal [104], .normal [112]]⟩

def samplePaths : Paths :=
  ⟨sampleRoot.join [100], sampleRoot.join [105], sampleRoot.join [114], sampleRoot.join [108]⟩

/-- Nothing is there, and one query fails. -/
def sampleHost (failing : Query) : Interaction.Host fun _ : Query => Reply := fun _ query =>
  if query = failing then .failed
  else
    match query with
    | .pathExists _ => .missing
    | .symlinkMetadata _ => .missing
    | .openState _ => .missing
    | _ => .done

def sampleRun (platform : Platform) (failing : Query) : Outcome × List Event :=
  (runPair platform samplePaths).run (sampleHost failing) []

theorem new_state_accounted_iff_sample :
    LeavesNothing samplePaths nothing (sampleRun .windows (.step .exchange)).2
      (sampleRun .windows (.step .exchange)).1 :=
  (new_state_accounted_iff (Interaction.runs_run _ [] (runPair .windows samplePaths))
    (by decide +kernel) (by decide +kernel)).mpr (by
      have hfirst : firstFailure (sampleRun .windows (.step .exchange)).2 =
          some (.step .exchange) := by decide +kernel
      intro query hquery
      obtain rfl := Option.some.inj (hfirst.symm.trans hquery)
      rfl)

/-- A fingerprint that is not confirmed leaves the new state and its key set. -/
theorem unconfirmed_state_left : ¬ ∀ platform paths events outcome,
    (runPair platform paths).Runs events outcome → creation paths ∈ events →
      ⟨.pathExists paths.desktopState, .done⟩ ∉ events →
      LeavesNothing paths nothing events outcome := by
  intro h
  have hleaves := h .windows samplePaths _ _
    (Interaction.runs_run (sampleHost (.step .confirm)) [] (runPair .windows samplePaths))
    (by decide +kernel) (by decide +kernel)
  have houtcome : (sampleRun .windows (.step .confirm)).1 = .error Step.confirm.error := by
    decide +kernel
  have hleft : (sampleRun .windows (.step .confirm)).2.foldl (leftAfter samplePaths) nothing =
      ⟨true, true⟩ := by
    decide +kernel
  rcases hleaves Step.confirm.error houtcome with hgone | hreported
  · have hboth : (⟨true, true⟩ : Left) = nothing := hleft.symm.trans hgone
    cases hboth
  · exact step_error_silent .confirm hreported

end Sample

end Creation

end AgePluginPhone.Desktop.ExplicitPair
