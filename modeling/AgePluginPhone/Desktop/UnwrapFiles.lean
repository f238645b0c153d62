import AgePluginPhone.Desktop.PublicChecks
import AgePluginPhone.Desktop.Unwrap
import AgePluginPhone.Library.Interaction

/-!
# Unwrapping the files of one invocation

`unwrap_with_prepared_exchange` as a program that asks its host for the private state, the clock and
the phone. Each file is checked, selected and exchanged before the next one is looked at.
-/

namespace AgePluginPhone.Desktop

open Library AgePluginPhone.Core

inductive ExchangeError
  | cancelled
  | connectionFailed
  | invalidResponse
  | failed
  deriving DecidableEq

structure IoError where
  message : String
  deriving DecidableEq

/-- What the program asks for on behalf of a file. `R` is what `prepare` hands to `exchange`. -/
inductive UnwrapQuery (R : Type)
  | resolveRoot (file : ℕ)
  | privateState (file : ℕ) (root : PathBuf)
  | prepare (file : ℕ) (stub : PublicIdentityStub) (locator : PairingLocator)
  | openReplay (file : ℕ) (path : PathBuf) (scope : ReplayScope) (capacity : ℕ)
  | now (file : ℕ)
  | random (file : ℕ)
  | exchange (file : ℕ) (prepared : R) (request : List Byte) (display : UnwrapDisplay)
  | receiveTime (file : ℕ)

namespace UnwrapQuery

variable {R : Type}

/-- The answers, over the replay states `σ` of a backend. -/
@[reducible] def Answer (C : Crates) (σ : Type) : UnwrapQuery R → Type
  | resolveRoot _ => Except IdentityError PathBuf
  | privateState _ _ => PrivateState
  | prepare _ _ _ => Except IdentityError R
  | openReplay _ _ _ _ => Option σ
  | now _ => Option U64
  | random _ => SessionRandom C
  | exchange _ _ _ _ => Except IoError (Except ExchangeError (List Byte))
  | receiveTime _ => Option U64

def file : UnwrapQuery R → ℕ
  | resolveRoot file => file
  | privateState file _ => file
  | prepare file _ _ => file
  | openReplay file _ _ _ => file
  | now file => file
  | random file => file
  | exchange file _ _ _ => file
  | receiveTime file => file

def isExchange : UnwrapQuery R → Bool
  | exchange _ _ _ _ => true
  | _ => false

/-- Neither the private root, nor the private state, nor the phone is asked. -/
def isAuxiliary : UnwrapQuery R → Bool
  | resolveRoot _ => false
  | privateState _ _ => false
  | exchange _ _ _ _ => false
  | _ => true

theorem isExchange_of_isAuxiliary {query : UnwrapQuery R} (h : query.isAuxiliary = true) :
    query.isExchange = false := by
  cases query <;> simp_all [isAuxiliary, isExchange]

end UnwrapQuery

abbrev UnwrapM (C : Crates) (R σ : Type) := Interaction (UnwrapQuery R) (UnwrapQuery.Answer C σ)

abbrev UnwrapEvent (C : Crates) (R σ : Type) :=
  Interaction.Event (UnwrapQuery.Answer C σ : UnwrapQuery R → Type)

/-- How the loop leaves a file. -/
inductive FileOutcome
  | absent
  | failed (errors : List IdentityError)
  | fileKey (key : Bytes 16)
  | cancelled (errors : List IdentityError)
  | aborted (failure : IoError)

/-- The results by file index. -/
abbrev Results := ℕ → Option (Except (List IdentityError) (Bytes 16))

def Results.insert (results : Results) (file : ℕ) (result : Except (List IdentityError) (Bytes 16)) :
    Results :=
  Function.update results file (some result)

def defaultReplayCapacity : ℕ := 1024

def u64Max : U64 := 18446744073709551615

section Program

variable {C : Crates} {R σ : Type} (m : TextMinicbor) (store : ReplayStore σ)

section Calls

def resolveRoot (file : ℕ) : UnwrapM C R σ (Except IdentityError PathBuf) := .query (UnwrapQuery.resolveRoot file)

def readPrivateState (file : ℕ) (root : PathBuf) : UnwrapM C R σ PrivateState :=
  .query (UnwrapQuery.privateState file root)

def prepare (file : ℕ) (stub : PublicIdentityStub) (locator : PairingLocator) :
    UnwrapM C R σ (Except IdentityError R) :=
  .query (UnwrapQuery.prepare file stub locator)

def openReplay (file : ℕ) (path : PathBuf) (scope : ReplayScope) (capacity : ℕ) :
    UnwrapM C R σ (Option σ) :=
  .query (UnwrapQuery.openReplay file path scope capacity)

def now (file : ℕ) : UnwrapM C R σ (Option U64) := .query (UnwrapQuery.now file)

def drawRandom (file : ℕ) : UnwrapM C R σ (SessionRandom C) := .query (UnwrapQuery.random file)

def exchange (file : ℕ) (prepared : R) (request : List Byte) (display : UnwrapDisplay) :
    UnwrapM C R σ (Except IoError (Except ExchangeError (List Byte))) :=
  .query (UnwrapQuery.exchange file prepared request display)

def receiveTime (file : ℕ) : UnwrapM C R σ (Option U64) := .query (UnwrapQuery.receiveTime file)

end Calls

def receiveFileKey (fileIndex : ℕ) (selected : SelectedCandidate) (session : DesktopUnwrapSession C)
    (replay : σ) (response : List Byte) : UnwrapM C R σ FileOutcome := do
  let now ← receiveTime fileIndex
  match (session.receiveResponse m store response replay (now.getD u64Max)).1 with
  | .ok fileKey => return .fileKey fileKey
  | .error _ => return .failed [.stanza fileIndex selected.stanzaIndex "phone response rejected"]

/-- The part of a file after the selection of its pairing and stanza. -/
def unwrapSelected (fileIndex : ℕ) (selected : SelectedCandidate) : UnwrapM C R σ FileOutcome := do
  match ← prepare fileIndex selected.stub selected.locator with
  | .error failure => return .failed [failure]
  | .ok prepared =>
  match ← openReplay fileIndex selected.locator.replayState
      selected.stub.pairingRecord.responseScope defaultReplayCapacity with
  | none => return .failed [.identity selected.identityIndex "response replay state is unavailable"]
  | some replay =>
  match ← now fileIndex with
  | none => return .aborted ⟨"system clock is unavailable"⟩
  | some time =>
  match DesktopUnwrapSession.begin C selected.stub selected.desktop selected.stanza
      (some "reference age identity-v1") time (← drawRandom fileIndex) with
  | .error _ =>
      return .failed [.stanza fileIndex selected.stanzaIndex "failed to create unwrap request"]
  | .ok session =>
  match ← exchange fileIndex prepared session.signedRequest session.display with
  | .error failure => return .aborted failure
  | .ok (.ok response) => receiveFileKey m store fileIndex selected session replay response
  | .ok (.error .cancelled) =>
      return .cancelled [.identity selected.identityIndex "phone unwrap cancelled"]
  | .ok (.error .connectionFailed) => return .failed [.stanza fileIndex selected.stanzaIndex
      "phone Wi-Fi connection unavailable after discovery"]
  | .ok (.error .invalidResponse) | .ok (.error .failed) =>
      return .failed [.stanza fileIndex selected.stanzaIndex "phone response unavailable or malformed"]

/-- One turn of the loop over the files. -/
def unwrapFile (identities : List (Identity C)) (fileIndex : ℕ) (stanzas : List TaggedStanza) :
    UnwrapM C R σ FileOutcome :=
  match publicChecks fileIndex identities stanzas with
  | .refused errors => return .failed errors
  | .miss => return .absent
  | .passed identities candidates => do
      match ← resolveRoot fileIndex with
      | .error failure => return .failed [failure]
      | .ok root =>
          match selectCandidate (← readPrivateState fileIndex root) identities candidates fileIndex with
          | .error errors => return .failed errors
          | .ok none => return .absent
          | .ok (some selected) => unwrapSelected m store fileIndex selected

def unwrapFrom (identities : List (Identity C)) :
    ℕ → List (List TaggedStanza) → Results → UnwrapM C R σ (Except IoError Results)
  | _, [], results => return .ok results
  | fileIndex, stanzas :: files, results => do
      match ← unwrapFile m store identities fileIndex stanzas with
      | .absent => unwrapFrom identities (fileIndex + 1) files results
      | .failed errors => unwrapFrom identities (fileIndex + 1) files (results.insert fileIndex (.error errors))
      | .fileKey key => unwrapFrom identities (fileIndex + 1) files (results.insert fileIndex (.ok key))
      | .cancelled errors => return .ok (results.insert fileIndex (.error errors))
      | .aborted failure => return .error failure

def unwrapWithPreparedExchange (identities : List (Identity C)) (files : List (List TaggedStanza)) :
    UnwrapM C R σ (Except IoError Results) :=
  unwrapFrom m store identities 0 files fun _ => none

end Program

section Runs

variable {C : Crates} {R σ : Type} (m : TextMinicbor) (store : ReplayStore σ) (fileIndex : ℕ)

/-- What follows the answer of the phone. -/
inductive AnswerRun (selected : SelectedCandidate) (session : DesktopUnwrapSession C) (replay : σ) :
    Except IoError (Except ExchangeError (List Byte)) → List (UnwrapEvent C R σ) → FileOutcome → Prop
  | aborted {failure} : AnswerRun selected session replay (.error failure) [] (.aborted failure)
  | cancelled {error} : AnswerRun selected session replay (.ok (.error .cancelled)) [] (.cancelled [error])
  | failed {failure error} : failure ≠ .cancelled →
      AnswerRun selected session replay (.ok (.error failure)) [] (.failed [error])
  | rejected {response time error} :
      AnswerRun selected session replay (.ok (.ok response)) [⟨.receiveTime fileIndex, time⟩] (.failed [error])
  | opened {response time key} :
      (session.receiveResponse m store response replay (Option.getD time u64Max)).1 = .ok key →
      AnswerRun selected session replay (.ok (.ok response)) [⟨.receiveTime fileIndex, time⟩] (.fileKey key)

/-- What follows the selection of a pairing and a stanza. -/
inductive SelectedRun (selected : SelectedCandidate) : List (UnwrapEvent C R σ) → FileOutcome → Prop
  | stopped {events error} : (∀ event ∈ events, event.1.file = fileIndex ∧ event.1.isAuxiliary = true) →
      SelectedRun selected events (.failed [error])
  | clockless {events} : (∀ event ∈ events, event.1.file = fileIndex ∧ event.1.isAuxiliary = true) →
      SelectedRun selected events (.aborted ⟨"system clock is unavailable"⟩)
  | exchanged {events prepared replay time random session answer after outcome} :
      (∀ event ∈ events, event.1.file = fileIndex ∧ event.1.isAuxiliary = true) →
      DesktopUnwrapSession.begin C selected.stub selected.desktop selected.stanza
        (some "reference age identity-v1") time random = .ok session →
      AnswerRun m store fileIndex selected session replay answer after outcome →
      SelectedRun selected (events ++
        ⟨.exchange fileIndex prepared session.signedRequest session.display, answer⟩ :: after) outcome

/-- What one turn of the loop can do. -/
inductive FileRun (identities : List (Identity C)) (stanzas : List TaggedStanza) :
    List (UnwrapEvent C R σ) → FileOutcome → Prop
  | refused {errors} : publicChecks fileIndex identities stanzas = .refused errors →
      FileRun identities stanzas [] (.failed errors)
  | miss : publicChecks fileIndex identities stanzas = .miss → FileRun identities stanzas [] .absent
  | rootless {chosen candidates failure} :
      publicChecks fileIndex identities stanzas = .passed chosen candidates →
      FileRun identities stanzas [⟨.resolveRoot fileIndex, .error failure⟩] (.failed [failure])
  | unselected {chosen candidates root state errors} :
      publicChecks fileIndex identities stanzas = .passed chosen candidates →
      selectCandidate state chosen candidates fileIndex = .error errors →
      FileRun identities stanzas [⟨.resolveRoot fileIndex, .ok root⟩, ⟨.privateState fileIndex root, state⟩]
        (.failed errors)
  | unmatched {chosen candidates root state} :
      publicChecks fileIndex identities stanzas = .passed chosen candidates →
      selectCandidate state chosen candidates fileIndex = .ok none →
      FileRun identities stanzas [⟨.resolveRoot fileIndex, .ok root⟩, ⟨.privateState fileIndex root, state⟩]
        .absent
  | selected {chosen candidates root state selected events outcome} :
      publicChecks fileIndex identities stanzas = .passed chosen candidates →
      selectCandidate state chosen candidates fileIndex = .ok (some selected) →
      SelectedRun m store fileIndex selected events outcome →
      FileRun identities stanzas
        (⟨.resolveRoot fileIndex, .ok root⟩ :: ⟨.privateState fileIndex root, state⟩ :: events) outcome

variable {m store fileIndex} {events : List (UnwrapEvent C R σ)} {outcome : FileOutcome}
  {selected : SelectedCandidate}

theorem receiveFileKey_runs {session : DesktopUnwrapSession C} {replay : σ} {response : List Byte}
    (h : (receiveFileKey m store fileIndex selected session replay response).Runs events outcome) :
    AnswerRun m store fileIndex selected session replay (.ok (.ok response)) events outcome := by
  obtain ⟨time, after, rfl, hrest⟩ := Interaction.runs_query_bind_iff.mp h
  cases hopen : (session.receiveResponse m store response replay (Option.getD time u64Max)).1 with
  | error failure =>
      rw [hopen] at hrest
      obtain ⟨rfl, rfl⟩ := Interaction.runs_pure_iff.mp hrest
      exact .rejected
  | ok key =>
      rw [hopen] at hrest
      obtain ⟨rfl, rfl⟩ := Interaction.runs_pure_iff.mp hrest
      exact .opened hopen

theorem unwrapSelected_runs
    (h : (unwrapSelected (R := R) m store fileIndex selected).Runs events outcome) :
    SelectedRun m store fileIndex selected events outcome := by
  obtain ⟨prepared, rest, rfl, hprepared⟩ := Interaction.runs_query_bind_iff.mp h
  cases prepared with
  | error failure =>
      obtain ⟨rfl, rfl⟩ := Interaction.runs_pure_iff.mp hprepared
      exact .stopped (by simp [UnwrapQuery.file, UnwrapQuery.isAuxiliary])
  | ok prepared =>
  obtain ⟨replay, rest, rfl, hreplay⟩ := Interaction.runs_query_bind_iff.mp hprepared
  cases replay with
  | none =>
      obtain ⟨rfl, rfl⟩ := Interaction.runs_pure_iff.mp hreplay
      exact .stopped (by simp [UnwrapQuery.file, UnwrapQuery.isAuxiliary])
  | some replay =>
  obtain ⟨time, rest, rfl, htime⟩ := Interaction.runs_query_bind_iff.mp hreplay
  cases time with
  | none =>
      obtain ⟨rfl, rfl⟩ := Interaction.runs_pure_iff.mp htime
      exact .clockless (by simp [UnwrapQuery.file, UnwrapQuery.isAuxiliary])
  | some time =>
  obtain ⟨random, rest, rfl, hrandom⟩ := Interaction.runs_query_bind_iff.mp htime
  cases hsession : DesktopUnwrapSession.begin C selected.stub selected.desktop selected.stanza
      (some "reference age identity-v1") time random with
  | error failure =>
      rw [hsession] at hrandom
      obtain ⟨rfl, rfl⟩ := Interaction.runs_pure_iff.mp hrandom
      exact .stopped (by simp [UnwrapQuery.file, UnwrapQuery.isAuxiliary])
  | ok session =>
  rw [hsession] at hrandom
  obtain ⟨answer, rest, rfl, hanswer⟩ := Interaction.runs_query_bind_iff.mp hrandom
  have hquiet : ∀ event ∈ ([⟨.prepare fileIndex selected.stub selected.locator, .ok prepared⟩,
      ⟨.openReplay fileIndex selected.locator.replayState selected.stub.pairingRecord.responseScope
        defaultReplayCapacity, some replay⟩, ⟨.now fileIndex, some time⟩, ⟨.random fileIndex, random⟩] :
      List (UnwrapEvent C R σ)), event.1.file = fileIndex ∧ event.1.isAuxiliary = true := by
    simp [UnwrapQuery.file, UnwrapQuery.isAuxiliary]
  suffices hrun : AnswerRun m store fileIndex selected session replay answer rest outcome from
    .exchanged hquiet hsession hrun
  rcases answer with failure | failure | response
  · obtain ⟨rfl, rfl⟩ := Interaction.runs_pure_iff.mp hanswer
    exact .aborted
  · cases failure with
    | cancelled =>
        obtain ⟨rfl, rfl⟩ := Interaction.runs_pure_iff.mp hanswer
        exact .cancelled
    | connectionFailed | invalidResponse | failed =>
        obtain ⟨rfl, rfl⟩ := Interaction.runs_pure_iff.mp hanswer
        exact .failed (by simp)
  · exact receiveFileKey_runs hanswer

/-- Every run of one turn of the loop is one of those described. -/
theorem unwrapFile_runs {identities : List (Identity C)} {stanzas : List TaggedStanza}
    (h : (unwrapFile (R := R) m store identities fileIndex stanzas).Runs events outcome) :
    FileRun m store fileIndex identities stanzas events outcome := by
  unfold unwrapFile at h
  cases hchecked : publicChecks fileIndex identities stanzas with
  | refused errors =>
      rw [hchecked] at h
      obtain ⟨rfl, rfl⟩ := Interaction.runs_pure_iff.mp h
      exact .refused hchecked
  | miss =>
      rw [hchecked] at h
      obtain ⟨rfl, rfl⟩ := Interaction.runs_pure_iff.mp h
      exact .miss hchecked
  | passed chosen candidates =>
  rw [hchecked] at h
  obtain ⟨root, rest, rfl, hroot⟩ := Interaction.runs_query_bind_iff.mp h
  cases root with
  | error failure =>
      obtain ⟨rfl, rfl⟩ := Interaction.runs_pure_iff.mp hroot
      exact .rootless hchecked
  | ok root =>
  obtain ⟨state, rest, rfl, hstate⟩ := Interaction.runs_query_bind_iff.mp hroot
  rcases hselect : selectCandidate state chosen candidates fileIndex with errors | selected
  · rw [hselect] at hstate
    obtain ⟨rfl, rfl⟩ := Interaction.runs_pure_iff.mp hstate
    exact .unselected hchecked hselect
  · rw [hselect] at hstate
    cases selected with
    | none =>
        obtain ⟨rfl, rfl⟩ := Interaction.runs_pure_iff.mp hstate
        exact .unmatched hchecked hselect
    | some selected => exact .selected hchecked hselect (unwrapSelected_runs hstate)

variable (m store) in
/-- What the loop over the files can do, from a file and the results so far. -/
inductive CallRun (identities : List (Identity C)) : ℕ → List (List TaggedStanza) → Results →
    List (UnwrapEvent C R σ) → Except IoError Results → Prop
  | finished {fileIndex results} : CallRun identities fileIndex [] results [] (.ok results)
  | absent {fileIndex stanzas files results before after result} :
      FileRun m store fileIndex identities stanzas before .absent →
      CallRun identities (fileIndex + 1) files results after result →
      CallRun identities fileIndex (stanzas :: files) results (before ++ after) result
  | failed {fileIndex stanzas files results before errors after result} :
      FileRun m store fileIndex identities stanzas before (.failed errors) →
      CallRun identities (fileIndex + 1) files (results.insert fileIndex (.error errors)) after result →
      CallRun identities fileIndex (stanzas :: files) results (before ++ after) result
  | fileKey {fileIndex stanzas files results before key after result} :
      FileRun m store fileIndex identities stanzas before (.fileKey key) →
      CallRun identities (fileIndex + 1) files (results.insert fileIndex (.ok key)) after result →
      CallRun identities fileIndex (stanzas :: files) results (before ++ after) result
  | cancelled {fileIndex stanzas files results events errors} :
      FileRun m store fileIndex identities stanzas events (.cancelled errors) →
      CallRun identities fileIndex (stanzas :: files) results events
        (.ok (results.insert fileIndex (.error errors)))
  | aborted {fileIndex stanzas files results events failure} :
      FileRun m store fileIndex identities stanzas events (.aborted failure) →
      CallRun identities fileIndex (stanzas :: files) results events (.error failure)

theorem unwrapFrom_runs {identities : List (Identity C)} {files : List (List TaggedStanza)}
    {results : Results} {result : Except IoError Results}
    (h : (unwrapFrom (R := R) m store identities fileIndex files results).Runs events result) :
    CallRun m store identities fileIndex files results events result := by
  induction files generalizing fileIndex results events with
  | nil =>
      obtain ⟨rfl, rfl⟩ := Interaction.runs_pure_iff.mp h
      exact .finished
  | cons stanzas files ih =>
      obtain ⟨before, outcome, after, hfile, hrest, rfl⟩ := Interaction.runs_bind_iff.mp h
      have hfile := unwrapFile_runs hfile
      cases outcome with
      | absent => exact .absent hfile (ih hrest)
      | failed errors => exact .failed hfile (ih hrest)
      | fileKey key => exact .fileKey hfile (ih hrest)
      | cancelled errors =>
          obtain ⟨rfl, rfl⟩ := Interaction.runs_pure_iff.mp hrest
          rw [List.append_nil]
          exact .cancelled hfile
      | aborted failure =>
          obtain ⟨rfl, rfl⟩ := Interaction.runs_pure_iff.mp hrest
          rw [List.append_nil]
          exact .aborted hfile

end Runs

end AgePluginPhone.Desktop
