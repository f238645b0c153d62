import AgePluginPhone.Core.Envelope
import AgePluginPhone.Core.StanzaSelection
import AgePluginPhone.Desktop.CleanupJournal

/-!
# Identities and candidate stanzas

The identities of one plugin run, the private state a desktop holds for them, and the choice of the
pairing and stanza a phone is asked about.
-/

namespace AgePluginPhone.Desktop

open Library AgePluginPhone.Core

/-- `identity::Error` of the plugin protocol. -/
inductive IdentityError
  | identity (index : ℕ) (message : String)
  | stanza (fileIndex stanzaIndex : ℕ) (message : String)
  | internal (message : String)
  deriving DecidableEq

inductive TransportChoice
  | auto
  | adb
  | wifi
  | qr
  | ble
  deriving DecidableEq

structure PairingLocator where
  desktopState : PathBuf
  replayState : PathBuf
  transport : TransportChoice
  deriving DecidableEq

inductive LocatorError
  | config
  | alreadyExists
  | missing
  | invalid
  | cleanupPending
  | setupPending
  | storage
  deriving DecidableEq

inductive DesktopStateError
  | stateMissing
  | state
  deriving DecidableEq

/-- Persistent desktop authentication state, with the keys it gives access to. -/
structure DesktopKeyState where
  desktopId : Id
  signer : P256Signer
  agreement : P256KeyAgreement

/-- What the private root of a desktop gives when it is read: the locator of a pairing and the desktop
state at a path. -/
structure PrivateState where
  openPairingLocator : PublicIdentityStub → Except LocatorError PairingLocator
  openDesktopKeyState : PathBuf → Except DesktopStateError DesktopKeyState

/-- The configured identity of a stub that `add_identity` has decoded. -/
structure Identity (C : Crates) where
  index : ℕ
  stub : PublicIdentityStub
  recipient : C.PublicKey
  recipient_eq : Recipient.parse C stub.recipient = .ok recipient

/-- A stanza of a file, by its place there. -/
structure Candidate where
  stanzaIndex : ℕ
  stanza : TaggedStanza
  deriving DecidableEq

structure SelectedCandidate where
  identityIndex : ℕ
  stub : PublicIdentityStub
  stanzaIndex : ℕ
  stanza : TaggedStanza
  locator : PairingLocator
  desktop : DesktopKeyState

variable (C : Crates)

def PublicIdentityStub.pairedRecipient (stub : PublicIdentityStub) :
    Except PairingError (PairedRecipient C) := do
  let phone ← (Recipient.parse C stub.recipient).mapError fun _ => .malformedStub
  (PairedRecipient.fromPublicFields C (encodePublic C phone) stub.desktopSelectionPublicKey
    stub.identityId).mapError fun _ => .malformedStub

structure OpenedIdentity where
  position : ℕ
  locator : PairingLocator
  desktop : DesktopKeyState
  recipient : PairedRecipient C

section Selection

variable {C} (state : PrivateState)

/-- One turn of the loop of `open_identities`. -/
def openIdentity (position : ℕ) (identity : Identity C) : Except IdentityError (OpenedIdentity C) := do
  let locator ← (state.openPairingLocator identity.stub).mapError fun _ =>
    .identity identity.index "paired desktop state is unavailable"
  let desktop ← (state.openDesktopKeyState locator.desktopState).mapError fun _ =>
    .identity identity.index "desktop authentication state is unavailable"
  let recipient ← (identity.stub.pairedRecipient C).mapError fun _ =>
    .identity identity.index "phone identity is malformed"
  return ⟨position, locator, desktop, recipient⟩

/-- The identities from a position on that open, and the errors of the others. -/
def openIdentities : ℕ → List (Identity C) → List (OpenedIdentity C) × List IdentityError
  | _, [] => ([], [])
  | position, identity :: identities =>
      let rest := openIdentities (position + 1) identities
      match openIdentity state position identity with
      | .ok opened => (opened :: rest.1, rest.2)
      | .error failure => (rest.1, failure :: rest.2)

/-- The position of the first candidate an opened identity recognises. -/
def searchCandidates (opened : OpenedIdentity C) : ℕ → List Candidate → Except (List IdentityError) (Option ℕ)
  | _, [] => .ok none
  | position, candidate :: candidates =>
      match matchesStanzaV2 C opened.recipient opened.desktop.agreement candidate.stanza with
      | .ok true => .ok (some position)
      | .ok false => searchCandidates opened (position + 1) candidates
      | .error _ => .error [.internal "private phone stanza selection failed"]

/-- The positions of the first match, in the order of the identities and then of the candidates. -/
def searchIdentities (candidates : List Candidate) :
    ℕ → List (OpenedIdentity C) → Except (List IdentityError) (Option (ℕ × ℕ))
  | _, [] => .ok none
  | position, opened :: rest => do
      match ← searchCandidates opened 0 candidates with
      | some candidatePosition => return some (position, candidatePosition)
      | none => searchIdentities candidates (position + 1) rest

/-- The v1 and native stanzas name no pairing: one identity and one stanza, or an error. -/
def selectAnonymous (identities : List (Identity C)) (candidates : List Candidate) (fileIndex : ℕ) :
    Except (List IdentityError) (Option SelectedCandidate) :=
  match identities, candidates with
  | [identity], [candidate] => do
      let locator ← (state.openPairingLocator identity.stub).mapError fun _ =>
        [.identity identity.index "paired desktop state is unavailable"]
      let desktop ← (state.openDesktopKeyState locator.desktopState).mapError fun _ =>
        [.identity identity.index "desktop authentication state is unavailable"]
      return some ⟨identity.index, identity.stub, candidate.stanzaIndex, candidate.stanza, locator,
        desktop⟩
  | _, _ => .error (candidates.map fun candidate =>
      .stanza fileIndex candidate.stanzaIndex "anonymous v1 phone stanza cannot be selected safely")

/-- What is found at a pair of positions among the opened identities and the candidates. -/
def assemble (identities : List (Identity C)) (opened : List (OpenedIdentity C))
    (candidates : List Candidate) (positions : ℕ × ℕ) : Option SelectedCandidate := do
  let found ← opened[positions.1]?
  let identity ← identities[found.position]?
  let candidate ← candidates[positions.2]?
  return ⟨identity.index, identity.stub, candidate.stanzaIndex, candidate.stanza, found.locator,
    found.desktop⟩

def selectCandidate (identities : List (Identity C)) (candidates : List Candidate) (fileIndex : ℕ) :
    Except (List IdentityError) (Option SelectedCandidate) :=
  if identities = [] then .error [.internal "no phone identity was provided"]
  else if candidates.any fun c => c.stanza.tag = stanzaTag ∨ c.stanza.tag = Tag.stanzaTag then
    selectAnonymous state identities candidates fileIndex
  else do
    let (opened, errors) := openIdentities state 0 identities
    match ← searchIdentities candidates 0 opened with
    | some positions => return assemble identities opened candidates positions
    | none => if errors = [] then return none else throw errors

end Selection

section Search

variable {C} {state : PrivateState} {identity : Identity C} {candidate : Candidate}

/-- The private state of the identity opens. -/
def Opens (state : PrivateState) (identity : Identity C) (locator : PairingLocator)
    (desktop : DesktopKeyState) (recipient : PairedRecipient C) : Prop :=
  state.openPairingLocator identity.stub = .ok locator ∧
    state.openDesktopKeyState locator.desktopState = .ok desktop ∧
    identity.stub.pairedRecipient C = .ok recipient

/-- The identity opens and recognises the stanza as its own. -/
def Authenticates (state : PrivateState) (identity : Identity C) (candidate : Candidate) : Prop :=
  ∃ locator desktop recipient, Opens state identity locator desktop recipient ∧
    matchesStanzaV2 C recipient desktop.agreement candidate.stanza = .ok true

/-- The identity opens, and its private test of the stanza gives no answer. -/
def Fails (state : PrivateState) (identity : Identity C) (candidate : Candidate) : Prop :=
  ∃ locator desktop recipient, Opens state identity locator desktop recipient ∧
    ∃ failure, matchesStanzaV2 C recipient desktop.agreement candidate.stanza = .error failure

/-- The identity opens with the selection key its stub names. -/
def Usable (state : PrivateState) (identity : Identity C) : Prop :=
  ∃ locator desktop recipient, Opens state identity locator desktop recipient ∧
    desktop.agreement.publicKey = .ok identity.stub.desktopSelectionPublicKey

theorem openIdentity_eq_ok {position : ℕ} {opened : OpenedIdentity C} :
    openIdentity state position identity = .ok opened ↔
      Opens state identity opened.locator opened.desktop opened.recipient ∧
        opened.position = position := by
  simp only [openIdentity, Opens, bind_eq_ok, mapError_ok, pure_eq_ok, Except.ok.injEq]
  constructor
  · intro h
    obtain ⟨locator, hlocator, desktop, hdesktop, recipient, hrecipient, rfl⟩ := h
    exact ⟨⟨hlocator, hdesktop, hrecipient⟩, rfl⟩
  · intro h
    obtain ⟨⟨hlocator, hdesktop, hrecipient⟩, rfl⟩ := h
    exact ⟨_, hlocator, _, hdesktop, _, hrecipient, rfl⟩

theorem closed_of_error {position : ℕ} {failure : IdentityError}
    (h : openIdentity state position identity = .error failure) (locator : PairingLocator)
    (desktop : DesktopKeyState) (recipient : PairedRecipient C) :
    ¬ Opens state identity locator desktop recipient := by
  intro hopens
  have hok : openIdentity state position identity = .ok ⟨position, locator, desktop, recipient⟩ :=
    openIdentity_eq_ok.mpr ⟨hopens, rfl⟩
  rw [h] at hok
  cases hok

theorem Opens.unique {locator locator' : PairingLocator} {desktop desktop' : DesktopKeyState}
    {recipient recipient' : PairedRecipient C} (h : Opens state identity locator desktop recipient)
    (h' : Opens state identity locator' desktop' recipient') :
    locator = locator' ∧ desktop = desktop' ∧ recipient = recipient' := by
  obtain ⟨hlocator, hdesktop, hrecipient⟩ := h
  obtain ⟨hlocator', hdesktop', hrecipient'⟩ := h'
  obtain rfl := Except.ok.inj (hlocator.symm.trans hlocator')
  obtain rfl := Except.ok.inj (hdesktop.symm.trans hdesktop')
  exact ⟨rfl, rfl, Except.ok.inj (hrecipient.symm.trans hrecipient')⟩

/-- The key of the recipient that opens is the one in the stub. -/
theorem Opens.selection_key {locator : PairingLocator} {desktop : DesktopKeyState}
    {recipient : PairedRecipient C} (h : Opens state identity locator desktop recipient) :
    encodePublic C recipient.desktopSelection = identity.stub.desktopSelectionPublicKey := by
  obtain ⟨-, -, hrecipient⟩ := h
  simp only [PublicIdentityStub.pairedRecipient, bind_eq_ok, mapError_ok, fromPublicFields_eq_ok]
    at hrecipient
  obtain ⟨_, -, -, hselection, -⟩ := hrecipient
  exact (Subtype.ext hselection).symm

/-- An identity that recognises a stanza is usable. -/
theorem Authenticates.usable (h : Authenticates state identity candidate) : Usable state identity := by
  obtain ⟨locator, desktop, recipient, hopens, hmatch⟩ := h
  refine ⟨locator, desktop, recipient, hopens, ?_⟩
  rw [← hopens.selection_key]
  exact publicKey_of_matches hmatch

/-- The test of a stanza neither recognises it nor fails. -/
def Quiet (state : PrivateState) (pair : Identity C × Candidate) : Prop :=
  ¬ Authenticates state pair.1 pair.2 ∧ ¬ Fails state pair.1 pair.2

theorem quiet_of_closed (h : ∀ locator desktop recipient, ¬ Opens state identity locator desktop recipient)
    (candidate : Candidate) : Quiet state (identity, candidate) := by
  constructor
  · intro hmatch
    obtain ⟨locator, desktop, recipient, hopens, -⟩ := hmatch
    exact h locator desktop recipient hopens
  · intro hfail
    obtain ⟨locator, desktop, recipient, hopens, -⟩ := hfail
    exact h locator desktop recipient hopens

theorem quiet_of_false {locator : PairingLocator} {desktop : DesktopKeyState}
    {recipient : PairedRecipient C} (hopens : Opens state identity locator desktop recipient)
    (hmatch : matchesStanzaV2 C recipient desktop.agreement candidate.stanza = .ok false) :
    Quiet state (identity, candidate) := by
  constructor
  · intro h
    obtain ⟨_, _, _, hopens', hmatch'⟩ := h
    obtain ⟨-, rfl, rfl⟩ := hopens.unique hopens'
    rw [hmatch] at hmatch'
    cases hmatch'
  · intro h
    obtain ⟨_, _, _, hopens', failure, hmatch'⟩ := h
    obtain ⟨-, rfl, rfl⟩ := hopens.unique hopens'
    rw [hmatch] at hmatch'
    cases hmatch'

/-- A search of the candidates stops at the first that is recognised or gives no answer. -/
theorem searchCandidates_cases (opened : OpenedIdentity C) (start : ℕ) (candidates : List Candidate) :
    (searchCandidates opened start candidates = .ok none ∧ ∀ candidate ∈ candidates,
      matchesStanzaV2 C opened.recipient opened.desktop.agreement candidate.stanza = .ok false) ∨
    ∃ earlier candidate later, candidates = earlier ++ candidate :: later ∧
      (∀ passed ∈ earlier,
        matchesStanzaV2 C opened.recipient opened.desktop.agreement passed.stanza = .ok false) ∧
      ((matchesStanzaV2 C opened.recipient opened.desktop.agreement candidate.stanza = .ok true ∧
          searchCandidates opened start candidates = .ok (some (start + earlier.length))) ∨
        ((∃ failure, matchesStanzaV2 C opened.recipient opened.desktop.agreement candidate.stanza
            = .error failure) ∧
          ∃ errors, searchCandidates opened start candidates = .error errors)) := by
  induction candidates generalizing start with
  | nil => exact Or.inl ⟨rfl, by simp⟩
  | cons candidate candidates ih =>
      cases hmatch : matchesStanzaV2 C opened.recipient opened.desktop.agreement candidate.stanza with
      | error failure =>
          refine Or.inr ⟨[], candidate, candidates, rfl, by simp, Or.inr ⟨⟨failure, hmatch⟩, ?_⟩⟩
          exact ⟨_, by simp only [searchCandidates, hmatch]; rfl⟩
      | ok found =>
          cases found with
          | true =>
              refine Or.inr ⟨[], candidate, candidates, rfl, by simp, Or.inl ⟨hmatch, ?_⟩⟩
              simp only [searchCandidates, hmatch, List.length_nil, Nat.add_zero]
          | false =>
              have hsearch : searchCandidates opened start (candidate :: candidates) =
                  searchCandidates opened (start + 1) candidates := by
                simp only [searchCandidates, hmatch]
              rcases ih (start + 1) with hnone | hfound
              · refine Or.inl ⟨hsearch.trans hnone.1, ?_⟩
                exact List.forall_mem_cons.mpr ⟨hmatch, hnone.2⟩
              · obtain ⟨earlier, found, later, rfl, hearlier, hend⟩ := hfound
                refine Or.inr ⟨candidate :: earlier, found, later, rfl,
                  List.forall_mem_cons.mpr ⟨hmatch, hearlier⟩, ?_⟩
                rw [hsearch, List.length_cons, show start + (earlier.length + 1) =
                  start + 1 + earlier.length by omega]
                exact hend

/-- The match at a pair of positions, and how the positions lead to it. -/
structure FoundAt (state : PrivateState) (identities : List (Identity C)) (candidates : List Candidate)
    (start : ℕ) (opened : List (OpenedIdentity C)) (positions : ℕ × ℕ) (identity : Identity C)
    (candidate : Candidate) (found : OpenedIdentity C) : Prop where
  opens : Opens state identity found.locator found.desktop found.recipient
  recognised : matchesStanzaV2 C found.recipient found.desktop.agreement candidate.stanza = .ok true
  opened : opened[positions.1]? = some found
  identity : ∃ k, found.position = start + k ∧ identities[k]? = some identity
  candidate : candidates[positions.2]? = some candidate

theorem openIdentities_cons_ok {position : ℕ} {identities : List (Identity C)} {opened : OpenedIdentity C}
    (h : openIdentity state position identity = .ok opened) :
    openIdentities state position (identity :: identities) =
      (opened :: (openIdentities state (position + 1) identities).1,
        (openIdentities state (position + 1) identities).2) := by
  simp only [openIdentities, h]

theorem openIdentities_cons_error {position : ℕ} {identities : List (Identity C)}
    {failure : IdentityError} (h : openIdentity state position identity = .error failure) :
    openIdentities state position (identity :: identities) =
      ((openIdentities state (position + 1) identities).1,
        failure :: (openIdentities state (position + 1) identities).2) := by
  simp only [openIdentities, h]

/-- The search over the opened identities stops at the first pair, in the order of the identities and
then of the candidates, that authenticates or fails. -/
theorem searchIdentities_cases (state : PrivateState) (start offset : ℕ) (identities : List (Identity C))
    (candidates : List Candidate) :
    (searchIdentities candidates offset (openIdentities state start identities).1 = .ok none ∧
      ∀ pair ∈ identities ×ˢ candidates, Quiet state pair) ∨
    ∃ before identity candidate after, identities ×ˢ candidates = before ++ (identity, candidate) :: after ∧
      (∀ pair ∈ before, Quiet state pair) ∧
      ((∃ positions found, searchIdentities candidates offset (openIdentities state start identities).1 =
            .ok (some (offset + positions.1, positions.2)) ∧
          FoundAt state identities candidates start (openIdentities state start identities).1 positions
            identity candidate found) ∨
        (Fails state identity candidate ∧ ∃ errors,
          searchIdentities candidates offset (openIdentities state start identities).1 = .error errors)) := by
  induction identities generalizing start offset with
  | nil => exact Or.inl ⟨rfl, by simp⟩
  | cons identity identities ih =>
      rw [List.product_cons]
      cases hopen : openIdentity state start identity with
      | error failure =>
          rw [openIdentities_cons_error hopen]
          have hclosed : ∀ pair ∈ candidates.map fun candidate => (identity, candidate), Quiet state pair := by
            intro pair hpair
            obtain ⟨candidate, -, rfl⟩ := List.mem_map.mp hpair
            exact quiet_of_closed (closed_of_error hopen) candidate
          rcases ih (start + 1) offset with hnone | hfound
          · refine Or.inl ⟨hnone.1, fun pair hpair => ?_⟩
            rcases List.mem_append.mp hpair with hpair | hpair
            · exact hclosed pair hpair
            · exact hnone.2 pair hpair
          · obtain ⟨before, owner, candidate, after, hproduct, hbefore, hend⟩ := hfound
            refine Or.inr ⟨candidates.map (fun candidate => (identity, candidate)) ++ before, owner,
              candidate, after, by rw [hproduct, List.append_assoc], ?_, ?_⟩
            · intro pair hpair
              rcases List.mem_append.mp hpair with hpair | hpair
              · exact hclosed pair hpair
              · exact hbefore pair hpair
            · rcases hend with hmatch | hfail
              · obtain ⟨positions, found, hsearch, hat⟩ := hmatch
                obtain ⟨k, hposition, hk⟩ := hat.identity
                refine Or.inl ⟨positions, found, hsearch, hat.opens, hat.recognised, hat.opened,
                  ⟨k + 1, by omega, hk⟩, hat.candidate⟩
              · exact Or.inr hfail
      | ok opened =>
          obtain ⟨hopens, hstart⟩ := openIdentity_eq_ok.mp hopen
          rw [openIdentities_cons_ok hopen]
          rcases searchCandidates_cases opened 0 candidates with hnone | hstop
          · have hquiet : ∀ pair ∈ candidates.map fun candidate => (identity, candidate), Quiet state pair := by
              intro pair hpair
              obtain ⟨candidate, hcandidate, rfl⟩ := List.mem_map.mp hpair
              exact quiet_of_false hopens (hnone.2 candidate hcandidate)
            simp only [searchIdentities, hnone.1, ok_bind]
            rcases ih (start + 1) (offset + 1) with hrest | hfound
            · refine Or.inl ⟨hrest.1, fun pair hpair => ?_⟩
              rcases List.mem_append.mp hpair with hpair | hpair
              · exact hquiet pair hpair
              · exact hrest.2 pair hpair
            · obtain ⟨before, owner, candidate, after, hproduct, hbefore, hend⟩ := hfound
              refine Or.inr ⟨candidates.map (fun candidate => (identity, candidate)) ++ before, owner,
                candidate, after, by rw [hproduct, List.append_assoc], ?_, ?_⟩
              · intro pair hpair
                rcases List.mem_append.mp hpair with hpair | hpair
                · exact hquiet pair hpair
                · exact hbefore pair hpair
              · rcases hend with hmatch | hfail
                · obtain ⟨positions, found, hsearch, hat⟩ := hmatch
                  obtain ⟨k, hposition, hk⟩ := hat.identity
                  refine Or.inl ⟨(positions.1 + 1, positions.2), found, ?_, hat.opens, hat.recognised,
                    hat.opened, ⟨k + 1, by omega, hk⟩, hat.candidate⟩
                  rw [hsearch, show offset + 1 + positions.1 = offset + (positions.1 + 1) by omega]
                · exact Or.inr hfail
          · obtain ⟨earlier, candidate, later, rfl, hearlier, hend⟩ := hstop
            refine Or.inr ⟨earlier.map fun candidate => (identity, candidate), identity, candidate,
              later.map (fun candidate => (identity, candidate)) ++
                identities ×ˢ (earlier ++ candidate :: later), by simp, ?_, ?_⟩
            · intro pair hpair
              obtain ⟨passed, hpassed, rfl⟩ := List.mem_map.mp hpair
              exact quiet_of_false hopens (hearlier passed hpassed)
            · rcases hend with hmatch | hfail
              · obtain ⟨hrecognised, hsearch⟩ := hmatch
                refine Or.inl ⟨(0, earlier.length), opened, ?_, hopens, hrecognised, rfl,
                  ⟨0, by simpa using hstart, rfl⟩, by simp⟩
                simp only [searchIdentities, hsearch, ok_bind, Nat.zero_add, Nat.add_zero]
                rfl
              · obtain ⟨⟨failure, hfailure⟩, errors, hsearch⟩ := hfail
                refine Or.inr ⟨⟨_, _, _, hopens, failure, hfailure⟩, errors, ?_⟩
                simp only [searchIdentities, hsearch, error_bind]

variable {identities : List (Identity C)} {candidates : List Candidate} {fileIndex : ℕ}

theorem openIdentities_errors (state : PrivateState) (start : ℕ) (identities : List (Identity C)) :
    (openIdentities state start identities).2 = [] ↔ ∀ identity ∈ identities,
      ∃ locator desktop recipient, Opens state identity locator desktop recipient := by
  induction identities generalizing start with
  | nil => simp [openIdentities]
  | cons identity identities ih =>
      rw [List.forall_mem_cons]
      cases hopen : openIdentity state start identity with
      | error failure =>
          rw [openIdentities_cons_error hopen]
          constructor
          · intro h
            cases h
          · intro h
            obtain ⟨⟨locator, desktop, recipient, hopens⟩, -⟩ := h
            exact absurd hopens (closed_of_error hopen locator desktop recipient)
      | ok opened =>
          rw [openIdentities_cons_ok hopen, ih (start + 1)]
          constructor
          · intro h
            exact ⟨⟨_, _, _, (openIdentity_eq_ok.mp hopen).1⟩, h⟩
          · intro h
            exact h.2

/-- The parts of the found pair belong together. -/
theorem assemble_foundAt {positions : ℕ × ℕ} {opened : List (OpenedIdentity C)} {identity : Identity C}
    {candidate : Candidate} {found : OpenedIdentity C}
    (h : FoundAt state identities candidates 0 opened positions identity candidate found) :
    assemble identities opened candidates positions = some ⟨identity.index, identity.stub,
      candidate.stanzaIndex, candidate.stanza, found.locator, found.desktop⟩ := by
  obtain ⟨k, hposition, hidentity⟩ := h.identity
  rw [Nat.zero_add] at hposition
  simp [assemble, h.opened, hposition, hidentity, h.candidate]

/-- What a selection among v2 stanzas comes to. -/
theorem selectCandidate_cases (state : PrivateState) (fileIndex : ℕ) (hidentities : identities ≠ [])
    (hv2 : ∀ candidate ∈ candidates, candidate.stanza.tag = stanzaTagV2) :
    (∃ before identity candidate after, identities ×ˢ candidates = before ++ (identity, candidate) :: after ∧
      (∀ pair ∈ before, Quiet state pair) ∧
      ((∃ locator desktop recipient, Opens state identity locator desktop recipient ∧
          matchesStanzaV2 C recipient desktop.agreement candidate.stanza = .ok true ∧
          selectCandidate state identities candidates fileIndex = .ok (some ⟨identity.index,
            identity.stub, candidate.stanzaIndex, candidate.stanza, locator, desktop⟩)) ∨
        (Fails state identity candidate ∧
          ∃ errors, selectCandidate state identities candidates fileIndex = .error errors))) ∨
    (∀ pair ∈ identities ×ˢ candidates, Quiet state pair) ∧
      (((∀ identity ∈ identities, ∃ locator desktop recipient, Opens state identity locator desktop recipient) ∧
          selectCandidate state identities candidates fileIndex = .ok none) ∨
        ((∃ identity ∈ identities, ∀ locator desktop recipient,
            ¬ Opens state identity locator desktop recipient) ∧
          ∃ errors, selectCandidate state identities candidates fileIndex = .error errors)) := by
  have hprivate : (candidates.any fun c => c.stanza.tag = stanzaTag ∨ c.stanza.tag = Tag.stanzaTag) = false := by
    apply List.any_eq_false.mpr
    intro candidate hcandidate
    rw [hv2 candidate hcandidate]
    decide
  have hselect : selectCandidate state identities candidates fileIndex =
      (searchIdentities candidates 0 (openIdentities state 0 identities).1 >>= fun found =>
        match found with
        | some positions => .ok (assemble identities (openIdentities state 0 identities).1 candidates positions)
        | none => if (openIdentities state 0 identities).2 = [] then .ok none
            else .error (openIdentities state 0 identities).2) := by
    rw [selectCandidate, if_neg hidentities, hprivate]
    rfl
  rw [hselect]
  rcases searchIdentities_cases state 0 0 identities candidates with hnone | hstop
  · refine Or.inr ⟨hnone.2, ?_⟩
    rw [hnone.1, ok_bind]
    by_cases hall : (openIdentities state 0 identities).2 = []
    · exact Or.inl ⟨(openIdentities_errors state 0 identities).mp hall, by simp [hall]⟩
    · refine Or.inr ⟨?_, _, by simp only [if_neg hall]; rfl⟩
      by_contra hopen
      push Not at hopen
      exact hall ((openIdentities_errors state 0 identities).mpr hopen)
  · obtain ⟨before, identity, candidate, after, hproduct, hquiet, hend⟩ := hstop
    refine Or.inl ⟨before, identity, candidate, after, hproduct, hquiet, ?_⟩
    rcases hend with hmatch | hfail
    · obtain ⟨positions, found, hsearch, hat⟩ := hmatch
      rw [Nat.zero_add] at hsearch
      refine Or.inl ⟨found.locator, found.desktop, found.recipient, hat.opens, hat.recognised, ?_⟩
      rw [hsearch, ok_bind]
      simp only [assemble_foundAt hat]
    · obtain ⟨hfails, errors, hsearch⟩ := hfail
      exact Or.inr ⟨hfails, errors, by rw [hsearch, error_bind]⟩

end Search

end AgePluginPhone.Desktop
