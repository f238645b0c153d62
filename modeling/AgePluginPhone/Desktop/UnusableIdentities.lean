import AgePluginPhone.Desktop.AgeIdentity
import AgePluginPhone.Desktop.KeyRoles
import AgePluginPhone.Library.Splits

/-!
# Selection among unusable identities

When some identities cannot be used, the first usable one that recognises a stanza is selected,
unless the private test of an earlier pair gives no answer.
-/

namespace AgePluginPhone.Desktop

open Library P256 AgePluginPhone.Core

variable {C : Crates} {state : PrivateState} {identities : List (Identity C)}
  {candidates : List Candidate} {fileIndex : ℕ} {selected : SelectedCandidate}

/-- The first pair, in the order of the identities and then of the stanzas, that authenticates. -/
def FirstMatch (state : PrivateState) (identities : List (Identity C)) (candidates : List Candidate)
    (selected : SelectedCandidate) : Prop :=
  ∃ before identity candidate after locator desktop recipient,
    identities ×ˢ candidates = before ++ (identity, candidate) :: after ∧
      (∀ pair ∈ before, ¬ Authenticates state pair.1 pair.2) ∧
      Opens state identity locator desktop recipient ∧
      matchesStanzaV2 C recipient desktop.agreement candidate.stanza = .ok true ∧
      selected = ⟨identity.index, identity.stub, candidate.stanzaIndex, candidate.stanza, locator, desktop⟩

/-- Unusable identities do not keep a usable one from being selected; without a match they are
reported. -/
def NoneBlocks (state : PrivateState) (identities : List (Identity C)) (candidates : List Candidate)
    (fileIndex : ℕ) : Prop :=
  (∀ selected, FirstMatch state identities candidates selected →
    selectCandidate state identities candidates fileIndex = .ok (some selected)) ∧
  ((∀ identity ∈ identities, ∀ candidate ∈ candidates, ¬ Authenticates state identity candidate) →
    ((∃ errors, selectCandidate state identities candidates fileIndex = .error errors) ↔
      ∃ identity ∈ identities, ¬ Usable state identity) ∧
    ((∀ identity ∈ identities, Usable state identity) →
      selectCandidate state identities candidates fileIndex = .ok none))

/-- There is an identity; no test that gives no answer comes before all that authenticate; where
every identity is usable and none authenticates, every test gives an answer; and without a stanza to
test, where an identity is unusable one does not open. -/
structure Unblocked (state : PrivateState) (identities : List (Identity C))
    (candidates : List Candidate) : Prop where
  nonempty : identities ≠ []
  first : ∀ before identity candidate after,
    identities ×ˢ candidates = before ++ (identity, candidate) :: after →
    Fails state identity candidate → (∃ pair ∈ after, Authenticates state pair.1 pair.2) →
    ∃ pair ∈ before, Authenticates state pair.1 pair.2
  answered : (∀ identity ∈ identities, Usable state identity) →
    (∀ pair ∈ identities ×ˢ candidates, ¬ Authenticates state pair.1 pair.2) →
    ∀ pair ∈ identities ×ˢ candidates, ¬ Fails state pair.1 pair.2
  untested : candidates = [] → (∃ identity ∈ identities, ¬ Usable state identity) →
    ∃ identity ∈ identities, ∀ locator desktop recipient, ¬ Opens state identity locator desktop recipient

theorem not_fails_of_authenticates {identity : Identity C} {candidate : Candidate}
    (h : Authenticates state identity candidate) : ¬ Fails state identity candidate := by
  intro hfails
  obtain ⟨_, _, _, hopens, hmatch⟩ := h
  obtain ⟨_, _, _, hopens', failure, hfailure⟩ := hfails
  obtain ⟨-, rfl, rfl⟩ := hopens.unique hopens'
  rw [hmatch] at hfailure
  cases hfailure

/-- An identity that opens with a key other than its stub's gives no answer for any stanza. -/
theorem fails_of_not_usable {identity : Identity C} {locator : PairingLocator}
    {desktop : DesktopKeyState} {recipient : PairedRecipient C}
    (hopens : Opens state identity locator desktop recipient) (husable : ¬ Usable state identity)
    (candidate : Candidate) : Fails state identity candidate := by
  refine ⟨locator, desktop, recipient, hopens, ?_⟩
  apply matchesStanzaV2_wrong_key
  intro hkey
  rw [hopens.selection_key] at hkey
  exact husable ⟨locator, desktop, recipient, hopens, hkey⟩

theorem Usable.opens {identity : Identity C} (h : Usable state identity) :
    ∃ locator desktop recipient, Opens state identity locator desktop recipient := by
  obtain ⟨locator, desktop, recipient, hopens, -⟩ := h
  exact ⟨locator, desktop, recipient, hopens⟩

/-- An authenticating pair after a failing one is what blocks a selection. -/
private theorem unblocked_of_noneBlocks (hv2 : ∀ candidate ∈ candidates, candidate.stanza.tag = stanzaTagV2)
    (h : NoneBlocks state identities candidates fileIndex) : Unblocked state identities candidates := by
  have hne : identities ≠ [] := by
    intro hempty
    subst hempty
    obtain ⟨identity, hmem, -⟩ := (h.2 (by simp)).1.mp ⟨_, rfl⟩
    exact absurd hmem List.not_mem_nil
  have hcases := selectCandidate_cases state fileIndex hne hv2
  refine ⟨hne, ?_, ?_, ?_⟩
  · intro before identity candidate after hproduct hfails hlater
    by_contra hnone
    push Not at hnone
    have hsome : ∃ pair ∈ identities ×ˢ candidates, Authenticates state pair.1 pair.2 := by
      obtain ⟨pair, hpair, hauth⟩ := hlater
      exact ⟨pair, by simp [hproduct, hpair], hauth⟩
    obtain ⟨first, pair, rest, hfirst, hauth, hbefore⟩ := Splits.exists_first hsome
    obtain ⟨locator, desktop, recipient, hopens, hmatch⟩ := hauth
    have hselect := h.1 _ ⟨first, pair.1, pair.2, rest, locator, desktop, recipient, hfirst, hbefore,
      hopens, hmatch, rfl⟩
    rcases hcases with hdecided | hquiet
    · obtain ⟨quiet, owner, stanza, others, hdecided, hquiet, hend⟩ := hdecided
      rcases hend with hfound | hfailed
      · obtain ⟨locator, desktop, recipient, hopens, hmatch, -⟩ := hfound
        have hauth : Authenticates state owner stanza := ⟨locator, desktop, recipient, hopens, hmatch⟩
        rcases Splits.compare (hproduct.symm.trans hdecided) with hsame | hmem | hmem
        · obtain ⟨rfl, rfl⟩ := Prod.mk.inj hsame.2.1
          exact not_fails_of_authenticates hauth hfails
        · exact (hquiet _ hmem).2 hfails
        · exact hnone _ hmem hauth
      · obtain ⟨-, errors, herror⟩ := hfailed
        rw [hselect] at herror
        cases herror
    · exact (hquiet.1 (identity, candidate) (by simp [hproduct])).2 hfails
  · intro husable hnone pair hpair hfails
    have hselect := (h.2 fun identity hidentity candidate hcandidate =>
      hnone (identity, candidate) (List.mem_product.mpr ⟨hidentity, hcandidate⟩)).2 husable
    rcases hcases with hdecided | hquiet
    · obtain ⟨quiet, owner, stanza, others, hdecided, -, hend⟩ := hdecided
      rcases hend with hfound | hfailed
      · obtain ⟨locator, desktop, recipient, hopens, hmatch, -⟩ := hfound
        exact hnone (owner, stanza) (by simp [hdecided]) ⟨locator, desktop, recipient, hopens, hmatch⟩
      · obtain ⟨-, errors, herror⟩ := hfailed
        rw [hselect] at herror
        cases herror
    · exact (hquiet.1 pair hpair).2 hfails
  · intro hempty hunusable
    subst hempty
    obtain ⟨errors, herror⟩ := (h.2 (by simp)).1.mpr hunusable
    rcases hcases with hdecided | hquiet
    · obtain ⟨_, _, _, _, hdecided, -⟩ := hdecided
      simp at hdecided
    · rcases hquiet.2 with hopen | hclosed
      · rw [hopen.2] at herror
        cases herror
      · exact hclosed.1

private theorem noneBlocks_of_unblocked (hv2 : ∀ candidate ∈ candidates, candidate.stanza.tag = stanzaTagV2)
    (h : Unblocked state identities candidates) : NoneBlocks state identities candidates fileIndex := by
  have hmem {before after : List (Identity C × Candidate)} {pair : Identity C × Candidate}
      (hproduct : identities ×ˢ candidates = before ++ pair :: after) : pair ∈ identities ×ˢ candidates := by
    simp [hproduct]
  rcases selectCandidate_cases state fileIndex h.nonempty hv2 with hdecided | hquiet
  · obtain ⟨before, identity, candidate, after, hproduct, hquiet, hend⟩ := hdecided
    rcases hend with hfound | hfailed
    · obtain ⟨locator, desktop, recipient, hopens, hmatch, hselect⟩ := hfound
      have hauth : Authenticates state identity candidate := ⟨locator, desktop, recipient, hopens, hmatch⟩
      constructor
      · intro selected hfirst
        obtain ⟨first, owner, stanza, rest, _, _, _, hproduct', hbefore, hopens', hmatch', rfl⟩ := hfirst
        obtain ⟨-, hpair, -⟩ := Splits.first_unique
          (P := fun pair : Identity C × Candidate => Authenticates state pair.1 pair.2)
          (hproduct.symm.trans hproduct') hauth ⟨_, _, _, hopens', hmatch'⟩
          (fun pair hpair => (hquiet pair hpair).1) hbefore
        obtain ⟨rfl, rfl⟩ := Prod.mk.inj hpair
        obtain ⟨rfl, rfl, -⟩ := hopens.unique hopens'
        exact hselect
      · intro hnone
        obtain ⟨hidentity, hcandidate⟩ := List.mem_product.mp (hmem hproduct)
        exact absurd hauth (hnone identity hidentity candidate hcandidate)
    · obtain ⟨hfails, hselect⟩ := hfailed
      have hnotAll (hnone : ∀ identity ∈ identities, ∀ candidate ∈ candidates,
          ¬ Authenticates state identity candidate) : ¬ ∀ identity ∈ identities, Usable state identity := by
        intro husable
        refine h.answered husable ?_ _ (hmem hproduct) hfails
        intro pair hpair
        obtain ⟨hidentity, hcandidate⟩ := List.mem_product.mp hpair
        exact hnone pair.1 hidentity pair.2 hcandidate
      constructor
      · intro selected hfirst
        obtain ⟨first, owner, stanza, rest, _, _, _, hproduct', -, hopens', hmatch', -⟩ := hfirst
        have hauth : Authenticates state owner stanza := ⟨_, _, _, hopens', hmatch'⟩
        have hlater : ∃ pair ∈ after, Authenticates state pair.1 pair.2 := by
          have hplace : (owner, stanza) ∈ before ++ (identity, candidate) :: after := hproduct ▸ hmem hproduct'
          rcases List.mem_append.mp hplace with hplace | hplace
          · exact absurd hauth (hquiet _ hplace).1
          · rcases List.mem_cons.mp hplace with hsame | hplace
            · obtain ⟨rfl, rfl⟩ := Prod.mk.inj hsame
              exact absurd hfails (not_fails_of_authenticates hauth)
            · exact ⟨_, hplace, hauth⟩
        obtain ⟨pair, hpair, hearlier⟩ := h.first before identity candidate after hproduct hfails hlater
        exact absurd hearlier (hquiet pair hpair).1
      · intro hnone
        have hsome := not_forall₂.mp (hnotAll hnone)
        refine ⟨⟨fun _ => ?_, fun _ => hselect⟩, fun husable => absurd husable (hnotAll hnone)⟩
        obtain ⟨identity, hidentity, hunusable⟩ := hsome
        exact ⟨identity, hidentity, hunusable⟩
  · obtain ⟨hquiet, hend⟩ := hquiet
    constructor
    · intro selected hfirst
      obtain ⟨first, owner, stanza, rest, _, _, _, hproduct, -, hopens, hmatch, -⟩ := hfirst
      exact absurd ⟨_, _, _, hopens, hmatch⟩ (hquiet _ (hmem hproduct)).1
    · intro _
      rcases hend with hopen | hclosed
      · obtain ⟨hopen, hselect⟩ := hopen
        refine ⟨⟨?_, ?_⟩, fun _ => hselect⟩
        · intro herror
          obtain ⟨errors, herror⟩ := herror
          rw [hselect] at herror
          cases herror
        · intro hunusable
          obtain ⟨identity, hidentity, hunusable⟩ := hunusable
          obtain ⟨locator, desktop, recipient, hopens⟩ := hopen identity hidentity
          by_cases hcandidates : candidates = []
          · obtain ⟨closed, hmem, hclosed⟩ := h.untested hcandidates ⟨identity, hidentity, hunusable⟩
            obtain ⟨_, _, _, hopens⟩ := hopen closed hmem
            exact absurd hopens (hclosed _ _ _)
          · obtain ⟨candidate, hcandidate⟩ := List.exists_mem_of_ne_nil candidates hcandidates
            exact absurd (fails_of_not_usable hopens hunusable candidate)
              (hquiet _ (List.mem_product.mpr ⟨hidentity, hcandidate⟩)).2
      · obtain ⟨⟨identity, hidentity, hclosed⟩, hselect⟩ := hclosed
        have hunusable : ¬ Usable state identity := by
          intro husable
          obtain ⟨locator, desktop, recipient, hopens⟩ := husable.opens
          exact hclosed locator desktop recipient hopens
        exact ⟨⟨fun _ => ⟨identity, hidentity, hunusable⟩, fun _ => hselect⟩,
          fun husable => absurd (husable identity hidentity) hunusable⟩

/-- A selection among v2 stanzas is as it should be exactly where nothing blocks it. -/
theorem noneBlocks_iff (hv2 : ∀ candidate ∈ candidates, candidate.stanza.tag = stanzaTagV2) :
    NoneBlocks state identities candidates fileIndex ↔ Unblocked state identities candidates :=
  ⟨unblocked_of_noneBlocks hv2, noneBlocks_of_unblocked hv2⟩

section Sample

/-- The values of the private test of the sample stanza by the pairing of the sample stub. -/
def selectionTable : CryptoTable where
  digests := []
  signatures := []
  secrets := [(desktopSelectionPoint, ephemeralPoint,
    0x1057e0ab5780f470defc9378d1c7c87437bb4c6f9ea55c63d936266dbd781fda)]
  macs := [((encodeCompressed ephemeralPoint).1 ++ (encodeCompressed desktopSelectionPoint).1,
      (number 32 0x1057e0ab5780f470defc9378d1c7c87437bb4c6f9ea55c63d936266dbd781fda).1,
      0x88a4137ec541b76a13e1320d85970e84d13c982bddc3b23aedbb8b4157eb4958),
    ((number 32 0x88a4137ec541b76a13e1320d85970e84d13c982bddc3b23aedbb8b4157eb4958).1,
      selectionKdfInfoV2 ++ [1], 0x610b41e358a14d37a6b564dc2562eb92acccd6d946d51d6cb5db827cc5a3f8d6)]
  streams := [(number 32 0x610b41e358a14d37a6b564dc2562eb92acccd6d946d51d6cb5db827cc5a3f8d6,
    0xaa4a91b5bb18866927eb2d38808282cb)]
  tags := [(number 32 0x610b41e358a14d37a6b564dc2562eb92acccd6d946d51d6cb5db827cc5a3f8d6,
    selectionAssociatedData (encodeCompressed ephemeralPoint) (encodeCompressed identityPoint)
      (encodeCompressed desktopSelectionPoint) (List.replicate 32 0),
    Cbor.bigEndian 16 0xa84893b7b91a846b25e92f3a828080c9, 0xf74357cba3e21481521cf62821448533)]

abbrev selectionCrates : Crates := Crates.ofTable selectionTable

def phoneKey : selectionCrates.PublicKey := identityPoint

def selectionKey : selectionCrates.PublicKey := desktopSelectionPoint

private theorem phoneKey_parse : Recipient.parse selectionCrates sampleRecipient = .ok phoneKey :=
  Recipient.parse_eq_ok.mpr (sampleRecipient_eq _)

/-- The desktop state of a pairing with a given selection key. -/
def sampleKeyState (selection : selectionCrates.SecretKey) : DesktopKeyState where
  desktopId := (sampleStub false).desktopId
  signer := ⟨.ok (encodeCompressed desktopSigningPoint), fun _ => .error .invalidSignature⟩
  agreement := ⟨.ok (encodePublic selectionCrates (selectionCrates.publicKey selection)), fun peer =>
    match selectionCrates.fromSec1Bytes peer with
    | some peer => .ok (selectionCrates.diffieHellman selection peer)
    | none => .error .keyAgreement⟩

/-- A second pairing with the same phone. -/
def sampleOtherStub : PublicIdentityStub := { sampleStub false with identityId := Bytes.replicate 16 3 }

def sampleLocator (name : String) : PairingLocator where
  desktopState := ⟨some "/", [.normal (utf8 name)]⟩
  replayState := ⟨some "/", [.normal (utf8 "replay")]⟩
  transport := .auto

/-- The desktop state of the second pairing has another selection key than its stub. -/
def samplePrivateState : PrivateState where
  openPairingLocator stub := .ok (sampleLocator (if stub.identityId = sampleOtherStub.identityId then
    "replaced" else "desktop"))
  openDesktopKeyState path := .ok (sampleKeyState (if path = (sampleLocator "replaced").desktopState then
    desktopSessionPoint else desktopSelectionPoint))

private def phoneIdentity (index : ℕ) (stub : PublicIdentityStub)
    (h : stub.recipient = sampleRecipient) : Identity selectionCrates :=
  ⟨index, stub, phoneKey, by
    rw [h]
    exact phoneKey_parse⟩

def sampleUsable (index : ℕ) : Identity selectionCrates := phoneIdentity index (sampleStub false) rfl

def sampleUnusable (index : ℕ) : Identity selectionCrates := phoneIdentity index sampleOtherStub rfl

/-- A stanza for the pairing of the sample stub. -/
def sampleStanza : TaggedStanza where
  tag := stanzaTagV2
  args := [Base64.encode (encodeCompressed ephemeralPoint).1,
    Base64.encode (Cbor.bigEndian 16 0xa84893b7b91a846b25e92f3a828080c9 ++
      Cbor.bigEndian 16 0xf74357cba3e21481521cf62821448533)]
  body := List.replicate 32 0

def samplePaired : PairedRecipient selectionCrates :=
  ⟨phoneKey, selectionKey, (sampleStub false).identityId⟩

theorem samplePaired_opens (index : ℕ) : Opens samplePrivateState (sampleUsable index)
    (sampleLocator "desktop") (sampleKeyState desktopSelectionPoint) samplePaired := by
  refine ⟨rfl, rfl, ?_⟩
  simp only [PublicIdentityStub.pairedRecipient, bind_eq_ok, mapError_ok, fromPublicFields_eq_ok]
  exact ⟨phoneKey, phoneKey_parse, rfl, congrArg Subtype.val (encodePublic_ofTable _ _).symm, rfl⟩

private theorem samplePaired_matches : matchesStanzaV2 selectionCrates samplePaired
    (sampleKeyState desktopSelectionPoint).agreement sampleStanza = .ok true := by
  decide +kernel

private theorem sampleUnusable_closed (index : ℕ) : ¬ Usable samplePrivateState (sampleUnusable index) := by
  intro h
  obtain ⟨_, _, _, hopens, hkey⟩ := h
  obtain ⟨hlocator, hdesktop, -⟩ := hopens
  obtain rfl := Except.ok.inj hlocator
  obtain rfl := Except.ok.inj hdesktop
  have hother : encodePublic selectionCrates desktopSessionPoint ≠ (sampleStub false).desktopSelectionPublicKey := by
    decide +kernel
  exact hother (Except.ok.inj hkey)

private theorem sampleUsable_authenticates (index : ℕ) :
    Authenticates samplePrivateState (sampleUsable index) ⟨0, sampleStanza⟩ :=
  ⟨_, _, _, samplePaired_opens index, samplePaired_matches⟩

private theorem sampleUnusable_not_authenticates (index : ℕ) :
    ¬ Authenticates samplePrivateState (sampleUnusable index) ⟨0, sampleStanza⟩ :=
  fun h => sampleUnusable_closed index h.usable

/-- The usable pairing is not selected when the one with the replaced desktop state comes first. -/
theorem replaced_state_blocks :
    ¬ NoneBlocks samplePrivateState [sampleUnusable 0, sampleUsable 1] [⟨0, sampleStanza⟩] 0 := by
  intro h
  have hfirst : FirstMatch samplePrivateState [sampleUnusable 0, sampleUsable 1] [⟨0, sampleStanza⟩]
      ⟨1, (sampleUsable 1).stub, 0, sampleStanza, sampleLocator "desktop",
        sampleKeyState desktopSelectionPoint⟩ := by
    refine ⟨[(sampleUnusable 0, ⟨0, sampleStanza⟩)], sampleUsable 1, ⟨0, sampleStanza⟩, [], _, _, _,
      rfl, ?_, samplePaired_opens 1, samplePaired_matches, rfl⟩
    intro pair hpair
    obtain rfl := List.mem_singleton.mp hpair
    exact sampleUnusable_not_authenticates 0
  have hselect := congrArg Except.isOk (h.1 _ hfirst)
  revert hselect
  decide +kernel

/-- It is selected when it comes first. -/
theorem sample_unblocked :
    NoneBlocks samplePrivateState [sampleUsable 0, sampleUnusable 1] [⟨0, sampleStanza⟩] 0 := by
  apply (noneBlocks_iff (by simp [sampleStanza])).mpr
  refine ⟨by simp, ?_, ?_, by simp⟩
  · intro before identity candidate after hproduct hfails _
    have hplace : [] ++ (sampleUsable 0, (⟨0, sampleStanza⟩ : Candidate)) ::
        [(sampleUnusable 1, ⟨0, sampleStanza⟩)] = before ++ (identity, candidate) :: after := hproduct
    rcases Splits.compare hplace with hsame | hmem | hmem
    · obtain ⟨rfl, rfl⟩ := Prod.mk.inj hsame.2.1
      exact absurd hfails (not_fails_of_authenticates (sampleUsable_authenticates 0))
    · exact ⟨_, hmem, sampleUsable_authenticates 0⟩
    · exact absurd hmem List.not_mem_nil
  · intro husable
    exact absurd (husable (sampleUnusable 1) (by simp)) (sampleUnusable_closed 1)

end Sample

end AgePluginPhone.Desktop
