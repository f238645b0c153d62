import AgePluginPhone.Desktop.PublicChecks
import AgePluginPhone.Desktop.UnusableIdentities

/-!
# The selection rule

Among pairings that are all available, the pairing and the stanza selected for a file are those of
the documented rule.
-/

namespace AgePluginPhone.Desktop

open Library AgePluginPhone.Core

variable {C : Crates}

/-- The selection that follows the public checks of a file. -/
def PublicChecks.select (state : PrivateState) (fileIndex : ℕ) :
    PublicChecks C → Except (List IdentityError) (Option SelectedCandidate)
  | .refused errors => .error errors
  | .miss => .ok none
  | .passed identities candidates => selectCandidate state identities candidates fileIndex

section Rule

/-- What the documented rule says of a file. -/
inductive Choice (C : Crates)
  | refused
  | miss
  | pair (identity : Identity C) (candidate : Candidate)

open Classical in
/-- The rule for the phone stanzas: a v1 stanza needs one identity and one stanza, and v2 stanzas are
tried in identity order, then stanza order. -/
noncomputable def phoneRule (state : PrivateState) (identities : List (Identity C))
    (candidates : List Candidate) : Choice C :=
  if ∃ candidate ∈ candidates, candidate.stanza.tag = stanzaTag then
    match identities, candidates with
    | [identity], [candidate] => .pair identity candidate
    | _, _ => .refused
  else
    match (identities ×ˢ candidates).find? fun pair => Authenticates state pair.1 pair.2 with
    | some pair => .pair pair.1 pair.2
    | none => .miss

open Classical in
/-- The documented rule: native stanzas are tried in stanza order, then identity order, before the
phone stanzas. -/
noncomputable def referenceRule (state : PrivateState) (identities : List (Identity C))
    (stanzas : List TaggedStanza) : Choice C :=
  let candidates := supportedFrom 0 stanzas
  if ¬ WellFormed C candidates ∨ Ambiguous identities candidates then .refused
  else
    match (candidates ×ˢ identities).find? fun pair =>
      pair.1.stanza.tag = Tag.stanzaTag ∧ pair.2.IsTagged pair.1.stanza with
    | some pair => .pair pair.2 pair.1
    | none => phoneRule state identities (untagged candidates)

/-- A selection is the one the rule names, with the private state of its identity. -/
def Follows (state : PrivateState) (selected : Except (List IdentityError) (Option SelectedCandidate)) :
    Choice C → Prop
  | .refused => ∃ errors, selected = .error errors
  | .miss => selected = .ok none
  | .pair identity candidate => ∃ locator desktop recipient,
      Opens state identity locator desktop recipient ∧ selected = .ok (some ⟨identity.index,
        identity.stub, candidate.stanzaIndex, candidate.stanza, locator, desktop⟩)

/-- The private state of the identity opens with the selection key its stub names, and the key
agrees with every peer. -/
def Available (state : PrivateState) (identity : Identity C) : Prop :=
  ∃ locator desktop recipient, Opens state identity locator desktop recipient ∧
    desktop.agreement.publicKey = .ok identity.stub.desktopSelectionPublicKey ∧
    ∀ peer, ∃ shared, desktop.agreement.agree (encodePublic C peer) = .ok shared

end Rule

section Correctness

variable {state : PrivateState} {identities : List (Identity C)} {candidates : List Candidate}
  {stanzas : List TaggedStanza} {fileIndex : ℕ}

theorem Available.opens {identity : Identity C} (h : Available state identity) :
    ∃ locator desktop recipient, Opens state identity locator desktop recipient := by
  obtain ⟨locator, desktop, recipient, hopens, -⟩ := h
  exact ⟨locator, desktop, recipient, hopens⟩

/-- An available pairing answers for every well-formed stanza that is not native. -/
theorem Available.not_fails {identity : Identity C} {candidate : Candidate}
    (h : Available state identity) (hvalid : validateStanza C candidate.stanza = .ok ())
    (htag : candidate.stanza.tag ≠ Tag.stanzaTag) : ¬ Fails state identity candidate := by
  intro hfails
  obtain ⟨_, _, _, hopens, hkey, hagree⟩ := h
  obtain ⟨_, _, _, hopens', failure, hfailure⟩ := hfails
  obtain ⟨rfl, rfl, rfl⟩ := hopens.unique hopens'
  rw [← hopens.selection_key] at hkey
  obtain ⟨found, hfound⟩ := matchesStanzaV2_total hkey hagree hvalid htag
  rw [hfound] at hfailure
  cases hfailure

theorem mem_untagged {candidate : Candidate} (h : candidate ∈ untagged (supportedFrom 0 stanzas)) :
    candidate ∈ supportedFrom 0 stanzas ∧ candidate.stanza.tag ≠ Tag.stanzaTag := by
  simpa [untagged] using h

theorem supported_of_mem {candidate : Candidate} (h : candidate ∈ supportedFrom 0 stanzas) :
    Supported candidate.stanza := by
  simpa using (List.mem_filter.mp h).2

/-- A single stanza that names no pairing goes to the single identity. -/
theorem selectCandidate_anonymous {identity : Identity C} {candidate : Candidate}
    (havailable : Available state identity)
    (htag : candidate.stanza.tag = stanzaTag ∨ candidate.stanza.tag = Tag.stanzaTag) :
    Follows state (selectCandidate state [identity] [candidate] fileIndex) (.pair identity candidate) := by
  obtain ⟨locator, desktop, recipient, hopens⟩ := havailable.opens
  refine ⟨locator, desktop, recipient, hopens, ?_⟩
  have hlocator : state.openPairingLocator identity.stub = .ok locator := hopens.1
  have hdesktop : state.openDesktopKeyState locator.desktopState = .ok desktop := hopens.2.1
  rw [selectCandidate, if_neg (by simp), if_pos (by simpa using htag)]
  simp [selectAnonymous, hlocator, hdesktop, Except.mapError]

open Classical in
/-- The search among v2 stanzas finds the first pair that authenticates. -/
theorem selectCandidate_v2 (hne : identities ≠ [])
    (havailable : ∀ identity ∈ identities, Available state identity)
    (hwell : WellFormed C candidates)
    (hv2 : ∀ candidate ∈ candidates, candidate.stanza.tag = stanzaTagV2) :
    Follows state (selectCandidate state identities candidates fileIndex)
      (phoneRule state identities candidates) := by
  have hv1 : ¬ ∃ candidate ∈ candidates, candidate.stanza.tag = stanzaTag := by
    intro h
    obtain ⟨candidate, hmem, htag⟩ := h
    rw [hv2 candidate hmem] at htag
    exact absurd htag (by decide)
  unfold phoneRule
  rw [if_neg hv1]
  rcases selectCandidate_cases state fileIndex hne hv2 with hdecided | hquiet
  · obtain ⟨before, identity, candidate, after, hproduct, hquiet, hend⟩ := hdecided
    have hmem : (identity, candidate) ∈ identities ×ˢ candidates := by simp [hproduct]
    obtain ⟨hidentity, hcandidate⟩ := List.mem_product.mp hmem
    rcases hend with hfound | hfailed
    · obtain ⟨locator, desktop, recipient, hopens, hmatch, hselect⟩ := hfound
      have hauth : Authenticates state identity candidate := ⟨locator, desktop, recipient, hopens, hmatch⟩
      have hfind : ((identities ×ˢ candidates).find? fun pair => Authenticates state pair.1 pair.2) =
          some (identity, candidate) := by
        apply List.find?_eq_some_iff_append.mpr
        refine ⟨by simpa using hauth, before, after, hproduct, ?_⟩
        intro pair hpair
        simpa using (hquiet pair hpair).1
      rw [hfind]
      exact ⟨locator, desktop, recipient, hopens, hselect⟩
    · have htag : candidate.stanza.tag ≠ Tag.stanzaTag := by
        rw [hv2 candidate hcandidate]
        decide
      exact absurd hfailed.1 ((havailable identity hidentity).not_fails (hwell candidate hcandidate) htag)
  · obtain ⟨hquiet, hend⟩ := hquiet
    have hfind : ((identities ×ˢ candidates).find? fun pair => Authenticates state pair.1 pair.2) = none := by
      apply List.find?_eq_none.mpr
      intro pair hpair
      simpa using (hquiet pair hpair).1
    rw [hfind]
    rcases hend with hopen | hclosed
    · exact hopen.2
    · obtain ⟨⟨identity, hidentity, hclosed⟩, -⟩ := hclosed
      obtain ⟨locator, desktop, recipient, hopens⟩ := (havailable identity hidentity).opens
      exact absurd hopens (hclosed locator desktop recipient)

/-- Where a v1 stanza is left, only a single identity and a single stanza are selected. -/
theorem selectCandidate_v1 (hne : identities ≠ [])
    (havailable : ∀ identity ∈ identities, Available state identity)
    (hv1 : ∃ candidate ∈ candidates, candidate.stanza.tag = stanzaTag) :
    Follows state (selectCandidate state identities candidates fileIndex)
      (phoneRule state identities candidates) := by
  have hanonymous : (candidates.any fun c => c.stanza.tag = stanzaTag ∨ c.stanza.tag = Tag.stanzaTag) = true := by
    obtain ⟨candidate, hmem, htag⟩ := hv1
    apply List.any_eq_true.mpr
    exact ⟨candidate, hmem, by simp [htag]⟩
  have hselect : selectCandidate state identities candidates fileIndex =
      selectAnonymous state identities candidates fileIndex := by
    rw [selectCandidate, if_neg hne, if_pos hanonymous]
  unfold phoneRule
  rw [if_pos hv1, hselect]
  cases identities with
  | nil => exact absurd rfl hne
  | cons identity identities =>
      cases candidates with
      | nil => simp at hv1
      | cons candidate candidates =>
          cases identities with
          | cons => exact ⟨_, rfl⟩
          | nil =>
              cases candidates with
              | cons => exact ⟨_, rfl⟩
              | nil =>
                  rw [← hselect]
                  refine selectCandidate_anonymous (havailable identity List.mem_cons_self) (Or.inl ?_)
                  simpa using hv1

private theorem find?_native {candidate : Candidate} {identity : Identity C}
    (hcandidate : (candidates.find? fun candidate => IsMatched identities candidate) = some candidate)
    (hidentity : (identities.find? fun identity => identity.IsTagged candidate.stanza) = some identity) :
    ((candidates ×ˢ identities).find? fun pair =>
      pair.1.stanza.tag = Tag.stanzaTag ∧ pair.2.IsTagged pair.1.stanza) = some (candidate, identity) := by
  obtain ⟨hmatched, before, after, rfl, hbefore⟩ := List.find?_eq_some_iff_append.mp hcandidate
  have htag : candidate.stanza.tag = Tag.stanzaTag := (of_decide_eq_true hmatched).1
  rw [Splits.find?_product]
  apply List.findSome?_eq_some_iff.mpr
  refine ⟨before, candidate, after, rfl, by simp [htag, hidentity], ?_⟩
  intro earlier hearlier
  have hunmatched : ¬ IsMatched identities earlier := by simpa using hbefore earlier hearlier
  rw [Option.map_eq_none_iff, List.find?_eq_none]
  intro other hother
  simpa using fun htag htagged => hunmatched ⟨htag, other, hother, htagged⟩

private theorem find?_native_none
    (h : (candidates.find? fun candidate => IsMatched identities candidate) = none) :
    ((candidates ×ˢ identities).find? fun pair =>
      pair.1.stanza.tag = Tag.stanzaTag ∧ pair.2.IsTagged pair.1.stanza) = none := by
  apply List.find?_eq_none.mpr
  intro pair hpair
  obtain ⟨hcandidate, hidentity⟩ := List.mem_product.mp hpair
  have hunmatched : ¬ IsMatched identities pair.1 := by
    simpa using List.find?_eq_none.mp h pair.1 hcandidate
  simpa using fun htag htagged => hunmatched ⟨htag, pair.2, hidentity, htagged⟩

/-- Among available pairings the selection is the one of the documented rule, and without an
identity a remaining phone stanza is an error. -/
theorem selection_follows_rule (state : PrivateState) (fileIndex : ℕ) (identities : List (Identity C))
    (stanzas : List TaggedStanza) (havailable : ∀ identity ∈ identities, Available state identity) :
    Follows state ((publicChecks fileIndex identities stanzas).select state fileIndex)
      (if identities = [] ∧ untagged (supportedFrom 0 stanzas) ≠ [] then .refused
        else referenceRule state identities stanzas) := by
  rcases publicChecks_cases fileIndex identities stanzas with hrefused | hpassed
  · obtain ⟨hbad, errors, -, hchecked⟩ := hrefused
    have hrule : referenceRule state identities stanzas = .refused := by
      unfold referenceRule
      exact if_pos hbad
    rw [hchecked, hrule, ite_self]
    exact ⟨errors, rfl⟩
  · obtain ⟨hwell, hambiguous, hpassed⟩ := hpassed
    have hgood : ¬ (¬ WellFormed C (supportedFrom 0 stanzas) ∨
        Ambiguous identities (supportedFrom 0 stanzas)) := by
      simp [hwell, hambiguous]
    rcases hpassed with hnative | hphone
    · obtain ⟨candidate, identity, hcandidate, hidentity, hchecked⟩ := hnative
      have hmem : identity ∈ identities := List.mem_of_find?_eq_some hidentity
      have hne : ¬ (identities = [] ∧ untagged (supportedFrom 0 stanzas) ≠ []) := by
        intro h
        rw [h.1] at hmem
        exact absurd hmem List.not_mem_nil
      have hrule : referenceRule state identities stanzas = .pair identity candidate := by
        unfold referenceRule
        rw [if_neg hgood, find?_native hcandidate hidentity]
      have hmatched : IsMatched identities candidate := by
        simpa using List.find?_some hcandidate
      rw [hchecked, if_neg hne, hrule]
      exact selectCandidate_anonymous (havailable identity hmem) (Or.inr hmatched.1)
    · obtain ⟨hnone, hphone⟩ := hphone
      have hrule : referenceRule state identities stanzas =
          phoneRule state identities (untagged (supportedFrom 0 stanzas)) := by
        unfold referenceRule
        rw [if_neg hgood, find?_native_none hnone]
      rw [hrule]
      rcases hphone with hmiss | hsearch
      · rw [hmiss.2, hmiss.1, if_neg (by simp)]
        unfold phoneRule
        simp [Follows, PublicChecks.select]
      · obtain ⟨hsome, hchecked⟩ := hsearch
        rw [hchecked]
        by_cases hempty : identities = []
        · rw [if_pos ⟨hempty, hsome⟩]
          exact ⟨_, if_pos hempty⟩
        · rw [if_neg fun h => hempty h.1]
          by_cases hv1 : ∃ candidate ∈ untagged (supportedFrom 0 stanzas), candidate.stanza.tag = stanzaTag
          · exact selectCandidate_v1 hempty havailable hv1
          · refine selectCandidate_v2 hempty havailable ?_ ?_
            · intro candidate hmem
              exact hwell candidate (mem_untagged hmem).1
            · intro candidate hmem
              obtain ⟨hsupported, htag⟩ := mem_untagged hmem
              rcases supported_of_mem hsupported with h | h | h
              · exact absurd ⟨candidate, hmem, h⟩ hv1
              · exact h
              · exact absurd h htag

end Correctness

section Sample

private theorem sampleUsable_available (index : ℕ) : Available samplePrivateState (sampleUsable index) := by
  refine ⟨_, _, _, samplePaired_opens index, congrArg Except.ok (encodePublic_ofTable _ _), ?_⟩
  intro peer
  have hpeer : selectionCrates.fromSec1Bytes (encodePublic selectionCrates peer) = some peer :=
    selectionCrates.fromSec1Bytes_compressed peer
  exact ⟨selectionCrates.diffieHellman desktopSelectionPoint peer, by simp only [sampleKeyState, hpeer]⟩

/-- A file with a stanza of the pairing and one of an unknown type. -/
theorem sample_follows_rule : Follows samplePrivateState
    ((publicChecks 0 [sampleUsable 0] [⟨"unknown", [], []⟩, sampleStanza]).select samplePrivateState 0)
    (if [sampleUsable 0] = [] ∧ untagged (supportedFrom 0 [⟨"unknown", [], []⟩, sampleStanza]) ≠ [] then
      .refused else referenceRule samplePrivateState [sampleUsable 0] [⟨"unknown", [], []⟩, sampleStanza]) := by
  apply selection_follows_rule
  intro identity hidentity
  obtain rfl := List.mem_singleton.mp hidentity
  exact sampleUsable_available 0

/-- Without an identity a v2 stanza is an error and not a miss. -/
theorem no_identity_no_miss : ¬ Follows samplePrivateState
    ((publicChecks 0 ([] : List (Identity selectionCrates)) [sampleStanza]).select samplePrivateState 0)
    (referenceRule samplePrivateState ([] : List (Identity selectionCrates)) [sampleStanza]) := by
  have hcandidates : supportedFrom 0 [sampleStanza] = [⟨0, sampleStanza⟩] := by decide +kernel
  have hvalid : validateStanza selectionCrates sampleStanza = .ok () := by decide +kernel
  have hrule : referenceRule samplePrivateState ([] : List (Identity selectionCrates)) [sampleStanza] =
      .miss := by
    have htag : sampleStanza.tag ≠ stanzaTag := by decide
    unfold referenceRule phoneRule
    simp [hcandidates, WellFormed, hvalid, Ambiguous, untagged, htag]
  intro h
  rw [hrule] at h
  have hselected := congrArg Except.isOk h
  revert hselected
  decide +kernel

end Sample

end AgePluginPhone.Desktop
