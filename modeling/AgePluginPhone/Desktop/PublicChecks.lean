import AgePluginPhone.Desktop.AgeIdentity

/-!
# Public checks of a file

What is checked of the stanzas of one file before any private state is opened: their structure, and
the public tags of the native ones against the phone keys of the identities.
-/

namespace AgePluginPhone.Desktop

open Library AgePluginPhone.Core

/-- The stanza types of the plugin. -/
def Supported (stanza : TaggedStanza) : Prop :=
  stanza.tag = stanzaTag ∨ stanza.tag = stanzaTagV2 ∨ stanza.tag = Tag.stanzaTag

instance (stanza : TaggedStanza) : Decidable (Supported stanza) := inferInstanceAs (Decidable (_ ∨ _))

/-- Does the public tag of a native stanza name the phone of the identity? -/
def Identity.IsTagged {C : Crates} (identity : Identity C) (stanza : TaggedStanza) : Prop :=
  Tag.matches C identity.recipient stanza = .ok true

instance {C : Crates} (identity : Identity C) (stanza : TaggedStanza) :
    Decidable (identity.IsTagged stanza) :=
  inferInstanceAs (Decidable (_ = _))

variable (C : Crates)

/-- The errors for the malformed stanzas of a file from an index on, and its candidates. -/
def sortStanzas (fileIndex : ℕ) : ℕ → List TaggedStanza → List IdentityError × List Candidate
  | _, [] => ([], [])
  | stanzaIndex, stanza :: stanzas =>
      let rest := sortStanzas fileIndex (stanzaIndex + 1) stanzas
      if ¬ Supported stanza then rest
      else if validateStanza C stanza = .ok () then (rest.1, ⟨stanzaIndex, stanza⟩ :: rest.2)
      else (.stanza fileIndex stanzaIndex "malformed phone stanza" :: rest.1, rest.2)

/-- The errors of the prefilter so far, and the positions of the identity and the candidate of its
first match. -/
structure PublicMatch where
  errors : List IdentityError
  positions : Option (ℕ × ℕ)

variable {C}

/-- The loop over the identities from a position on, for the native candidate at a position. -/
def matchIdentities (candidatePosition : ℕ) (stanza : TaggedStanza) :
    ℕ → List (Identity C) → Option EncodedPublicKey → PublicMatch → PublicMatch
  | _, [], _, found => found
  | identityPosition, identity :: identities, matchedKey, found =>
      if identity.IsTagged stanza then
        let key := encodePublic C identity.recipient
        match matchedKey with
        | some previous =>
            matchIdentities candidatePosition stanza (identityPosition + 1) identities (some previous)
              (if previous ≠ key then
                { found with errors := found.errors ++ [.internal "ambiguous p256tag recipient"] }
              else found)
        | none =>
            matchIdentities candidatePosition stanza (identityPosition + 1) identities (some key)
              { found with positions := found.positions.or (some (identityPosition, candidatePosition)) }
      else matchIdentities candidatePosition stanza (identityPosition + 1) identities matchedKey found

/-- The loop over the candidates from a position on. -/
def publicMatch (identities : List (Identity C)) : ℕ → List Candidate → PublicMatch → PublicMatch
  | _, [], found => found
  | position, candidate :: candidates, found =>
      publicMatch identities (position + 1) candidates
        (if candidate.stanza.tag = Tag.stanzaTag then
          matchIdentities position candidate.stanza 0 identities none found
        else found)

/-- What becomes of a file after its public checks: an error, no result, or a selection among
identities and candidates. -/
inductive PublicChecks (C : Crates)
  | refused (errors : List IdentityError)
  | miss
  | passed (identities : List (Identity C)) (candidates : List Candidate)

def publicChecks (fileIndex : ℕ) (identities : List (Identity C)) (stanzas : List TaggedStanza) :
    PublicChecks C :=
  let (errors, candidates) := sortStanzas C fileIndex 0 stanzas
  if candidates = [] ∨ errors ≠ [] then if errors ≠ [] then .refused errors else .miss
  else
    let found := publicMatch identities 0 candidates ⟨[], none⟩
    if found.errors ≠ [] then .refused found.errors
    else
      match found.positions with
      | some positions => .passed identities[positions.1]?.toList candidates[positions.2]?.toList
      | none =>
          let candidates := candidates.filter fun candidate => candidate.stanza.tag ≠ Tag.stanzaTag
          if candidates = [] then .miss else .passed identities candidates

section Specifications

/-- The supported stanzas of a file, with their places. -/
def supportedFrom (start : ℕ) (stanzas : List TaggedStanza) : List Candidate :=
  ((stanzas.zipIdx start).map fun place => ⟨place.2, place.1⟩).filter fun candidate =>
    Supported candidate.stanza

variable (C) in
def WellFormed (candidates : List Candidate) : Prop :=
  ∀ candidate ∈ candidates, validateStanza C candidate.stanza = .ok ()

/-- Two identities with different phone keys to whom the tag of one stanza points. -/
def Ambiguous (identities : List (Identity C)) (candidates : List Candidate) : Prop :=
  ∃ candidate ∈ candidates, candidate.stanza.tag = Tag.stanzaTag ∧
    ∃ identity ∈ identities, ∃ other ∈ identities, identity.IsTagged candidate.stanza ∧
      other.IsTagged candidate.stanza ∧ identity.recipient ≠ other.recipient

/-- A native stanza whose tag points to an identity. -/
def IsMatched (identities : List (Identity C)) (candidate : Candidate) : Prop :=
  candidate.stanza.tag = Tag.stanzaTag ∧ ∃ identity ∈ identities, identity.IsTagged candidate.stanza

instance (identities : List (Identity C)) (candidate : Candidate) :
    Decidable (IsMatched identities candidate) :=
  inferInstanceAs (Decidable (_ ∧ _))

/-- The phone stanzas among the candidates. -/
def untagged (candidates : List Candidate) : List Candidate :=
  candidates.filter fun candidate => candidate.stanza.tag ≠ Tag.stanzaTag

theorem supportedFrom_cons (start : ℕ) (stanza : TaggedStanza) (stanzas : List TaggedStanza) :
    supportedFrom start (stanza :: stanzas) = if Supported stanza then
      ⟨start, stanza⟩ :: supportedFrom (start + 1) stanzas else supportedFrom (start + 1) stanzas := by
  simp only [supportedFrom, List.zipIdx_cons, List.map_cons, List.filter_cons, decide_eq_true_eq]

/-- Errors stand for malformed stanzas, and without one every supported stanza is a candidate. -/
theorem sortStanzas_spec (fileIndex start : ℕ) (stanzas : List TaggedStanza) :
    ((sortStanzas C fileIndex start stanzas).1 = [] ↔ WellFormed C (supportedFrom start stanzas)) ∧
      (WellFormed C (supportedFrom start stanzas) →
        (sortStanzas C fileIndex start stanzas).2 = supportedFrom start stanzas) := by
  induction stanzas generalizing start with
  | nil => simp [sortStanzas, supportedFrom, WellFormed]
  | cons stanza stanzas ih =>
      rw [supportedFrom_cons]
      by_cases hsupported : Supported stanza
      · by_cases hvalid : validateStanza C stanza = .ok ()
        · have hwell : WellFormed C (⟨start, stanza⟩ :: supportedFrom (start + 1) stanzas) ↔
              WellFormed C (supportedFrom (start + 1) stanzas) := by
            simp only [WellFormed, List.forall_mem_cons, hvalid, true_and]
          simp only [sortStanzas, hsupported, hvalid, not_true_eq_false, if_false, if_true, hwell]
          refine ⟨(ih (start + 1)).1, fun h => ?_⟩
          rw [(ih (start + 1)).2 h]
        · have hmalformed : ¬ WellFormed C (⟨start, stanza⟩ :: supportedFrom (start + 1) stanzas) := by
            intro h
            exact hvalid (h _ List.mem_cons_self)
          simp [sortStanzas, hsupported, hvalid, hmalformed]
      · simp only [sortStanzas, hsupported, not_false_eq_true, if_true, if_false]
        exact ih (start + 1)

/-- Once a key has matched, the others only have to agree with it. -/
private theorem matchIdentities_some (position start : ℕ) (stanza : TaggedStanza)
    (identities : List (Identity C)) (previous : EncodedPublicKey) (found : PublicMatch) :
    ((matchIdentities position stanza start identities (some previous) found).errors = [] ↔
        found.errors = [] ∧ ∀ identity ∈ identities, identity.IsTagged stanza →
          previous = encodePublic C identity.recipient) ∧
      (matchIdentities position stanza start identities (some previous) found).positions =
        found.positions := by
  induction identities generalizing start found with
  | nil => simp [matchIdentities]
  | cons identity identities ih =>
      rw [List.forall_mem_cons]
      by_cases htagged : identity.IsTagged stanza
      · by_cases hkey : previous = encodePublic C identity.recipient
        · simp only [matchIdentities, htagged, hkey, ne_eq, not_true_eq_false, if_true, if_false]
          simpa only [hkey, true_imp_iff, true_and] using ih (start + 1) found
        · simp only [matchIdentities, htagged, hkey, ne_eq, not_false_eq_true, if_true]
          obtain ⟨herrors, hpositions⟩ := ih (start + 1) { found with
            errors := found.errors ++ [.internal "ambiguous p256tag recipient"] }
          exact ⟨by simp [herrors], hpositions⟩
      · simp only [matchIdentities, htagged, if_false]
        simpa only [false_imp_iff, true_and] using ih (start + 1) found

private theorem matchIdentities_none (position start : ℕ) (stanza : TaggedStanza)
    (identities : List (Identity C)) (found : PublicMatch) :
    ((matchIdentities position stanza start identities none found).errors = [] ↔
        found.errors = [] ∧ ∀ identity ∈ identities, ∀ other ∈ identities, identity.IsTagged stanza →
          other.IsTagged stanza → identity.recipient = other.recipient) ∧
      (matchIdentities position stanza start identities none found).positions = found.positions.or
        ((identities.findIdx? fun identity => identity.IsTagged stanza).map fun k => (start + k, position)) := by
  induction identities generalizing start with
  | nil => simp [matchIdentities]
  | cons identity identities ih =>
      by_cases htagged : identity.IsTagged stanza
      · obtain ⟨herrors, hpositions⟩ := matchIdentities_some position (start + 1) stanza identities
          (encodePublic C identity.recipient)
          { found with positions := found.positions.or (some (start, position)) }
        simp only [matchIdentities, htagged, if_true]
        constructor
        · rw [herrors]
          refine and_congr_right fun _ => ⟨fun h => ?_, fun h other hother hmatch => ?_⟩
          · have hkey {other : Identity C} (hother : other ∈ identity :: identities)
                (hmatch : other.IsTagged stanza) : identity.recipient = other.recipient := by
              rcases List.mem_cons.mp hother with rfl | hother
              · rfl
              · exact encodePublic_injective (h other hother hmatch)
            intro first hfirst second hsecond hmatch hmatch'
            exact (hkey hfirst hmatch).symm.trans (hkey hsecond hmatch')
          · rw [h identity List.mem_cons_self other (List.mem_cons_of_mem _ hother) htagged hmatch]
        · rw [hpositions, List.findIdx?_cons]
          simp [htagged]
      · obtain ⟨herrors, hpositions⟩ := ih (start + 1)
        simp only [matchIdentities, htagged, if_false]
        constructor
        · rw [herrors]
          simp [htagged]
        · rw [hpositions, List.findIdx?_cons]
          simp only [htagged, decide_false, Option.map_map, Function.comp_def, Bool.false_eq_true,
            if_false, Nat.add_assoc, Nat.add_comm 1]

theorem ambiguous_cons (identities : List (Identity C)) (candidate : Candidate)
    (candidates : List Candidate) : Ambiguous identities (candidate :: candidates) ↔
      (candidate.stanza.tag = Tag.stanzaTag ∧ ∃ identity ∈ identities, ∃ other ∈ identities,
        identity.IsTagged candidate.stanza ∧ other.IsTagged candidate.stanza ∧
        identity.recipient ≠ other.recipient) ∨ Ambiguous identities candidates := by
  simp only [Ambiguous, List.exists_mem_cons_iff]

/-- The prefilter reports ambiguity wherever it is. -/
theorem publicMatch_errors (identities : List (Identity C)) (start : ℕ) (candidates : List Candidate)
    (found : PublicMatch) : (publicMatch identities start candidates found).errors = [] ↔
      found.errors = [] ∧ ¬ Ambiguous identities candidates := by
  induction candidates generalizing start found with
  | nil => simp [publicMatch, Ambiguous]
  | cons candidate candidates ih =>
      rw [publicMatch, ih, ambiguous_cons, not_or, ← and_assoc]
      refine and_congr_left fun _ => ?_
      by_cases htag : candidate.stanza.tag = Tag.stanzaTag
      · rw [if_pos htag, (matchIdentities_none start 0 candidate.stanza identities found).1]
        simp [htag]
      · simp [htag]

private theorem publicMatch_kept (identities : List (Identity C)) (start : ℕ)
    (candidates : List Candidate) {found : PublicMatch} {positions : ℕ × ℕ}
    (h : found.positions = some positions) :
    (publicMatch identities start candidates found).positions = some positions := by
  induction candidates generalizing start found with
  | nil => exact h
  | cons candidate candidates ih =>
      apply ih
      split
      · rw [(matchIdentities_none start 0 candidate.stanza identities found).2, h]
        rfl
      · exact h

/-- The positions the prefilter finds are those of the first matching native stanza and of the first
identity it matches. -/
theorem publicMatch_positions (identities : List (Identity C)) (start : ℕ) (candidates : List Candidate)
    {found : PublicMatch} (h : found.positions = none) :
    ((candidates.find? fun candidate => IsMatched identities candidate) = none ∧
      (publicMatch identities start candidates found).positions = none) ∨
    ∃ candidate identity i k,
      (candidates.find? fun candidate => IsMatched identities candidate) = some candidate ∧
      (identities.find? fun identity => identity.IsTagged candidate.stanza) = some identity ∧
      (publicMatch identities start candidates found).positions = some (i, start + k) ∧
      candidates[k]? = some candidate ∧ identities[i]? = some identity := by
  induction candidates generalizing start found with
  | nil => exact Or.inl ⟨rfl, h⟩
  | cons candidate candidates ih =>
      by_cases hmatched : IsMatched identities candidate
      · obtain ⟨htag, hidentity⟩ := hmatched
        have hidx : (identities.findIdx? fun identity => identity.IsTagged candidate.stanza).isSome := by
          simpa [List.findIdx?_isSome] using hidentity
        obtain ⟨i, hidx⟩ := Option.isSome_iff_exists.mp hidx
        have hfind : (identities.find? fun identity => identity.IsTagged candidate.stanza) =
            identities[i]? := by
          rw [List.find?_eq_bind_findIdx?_getElem?, hidx, Option.bind_some]
        obtain ⟨hi, -⟩ := List.findIdx?_eq_some_iff_getElem.mp hidx
        refine Or.inr ⟨candidate, identities[i], i, 0, ?_, ?_, ?_, rfl, by simp [hi]⟩
        · simp [IsMatched, htag, hidentity]
        · rw [hfind, List.getElem?_eq_getElem hi]
        · rw [publicMatch, if_pos htag]
          apply publicMatch_kept
          rw [(matchIdentities_none start 0 candidate.stanza identities found).2, h, hidx]
          simp
      · have hsame : (if candidate.stanza.tag = Tag.stanzaTag then
            matchIdentities start candidate.stanza 0 identities none found else found).positions = none := by
          split
          next htag =>
            have hnone : (identities.findIdx? fun identity => identity.IsTagged candidate.stanza) = none := by
              apply List.findIdx?_eq_none_iff.mpr
              intro identity hidentity
              simpa using fun htagged => hmatched ⟨htag, identity, hidentity, htagged⟩
            rw [(matchIdentities_none start 0 candidate.stanza identities found).2, h, hnone]
            rfl
          next => exact h
        rw [List.find?_cons_of_neg (by simpa using hmatched), publicMatch]
        rcases ih (start + 1) hsame with hnone | hfound
        · exact Or.inl hnone
        · obtain ⟨first, identity, i, k, hfirst, hidentity, hpositions, hk, hi⟩ := hfound
          refine Or.inr ⟨first, identity, i, k + 1, hfirst, hidentity, ?_, hk, hi⟩
          rw [hpositions, Nat.add_assoc, Nat.add_comm 1]

/-- What the public checks of a file come to. -/
theorem publicChecks_cases (fileIndex : ℕ) (identities : List (Identity C)) (stanzas : List TaggedStanza) :
    let candidates := supportedFrom 0 stanzas
    let checked := publicChecks fileIndex identities stanzas
    ((¬ WellFormed C candidates ∨ Ambiguous identities candidates) ∧
        ∃ errors, errors ≠ [] ∧ checked = .refused errors) ∨
    WellFormed C candidates ∧ ¬ Ambiguous identities candidates ∧
      ((∃ candidate identity,
          (candidates.find? fun candidate => IsMatched identities candidate) = some candidate ∧
          (identities.find? fun identity => identity.IsTagged candidate.stanza) = some identity ∧
          checked = .passed [identity] [candidate]) ∨
        (candidates.find? fun candidate => IsMatched identities candidate) = none ∧
          ((untagged candidates = [] ∧ checked = .miss) ∨
            (untagged candidates ≠ [] ∧ checked = .passed identities (untagged candidates)))) := by
  intro candidates checked
  obtain ⟨herrors, hcandidates⟩ := sortStanzas_spec (C := C) fileIndex 0 stanzas
  by_cases hwell : WellFormed C candidates
  · have hsorted : sortStanzas C fileIndex 0 stanzas = ([], candidates) :=
      Prod.ext (herrors.mpr hwell) (hcandidates hwell)
    by_cases hnone : candidates = []
    · refine Or.inr ⟨hwell, by simp [hnone, Ambiguous], Or.inr ⟨by simp [hnone], Or.inl ⟨?_, ?_⟩⟩⟩
      · simp [hnone, untagged]
      · simp [checked, publicChecks, hsorted, hnone]
    · have hmatch := publicMatch_errors identities 0 candidates ⟨[], none⟩
      by_cases hambiguous : Ambiguous identities candidates
      · have hfound : (publicMatch identities 0 candidates ⟨[], none⟩).errors ≠ [] := by
          intro h
          exact (hmatch.mp h).2 hambiguous
        exact Or.inl ⟨Or.inr hambiguous, _, hfound, by simp [checked, publicChecks, hsorted, hnone, hfound]⟩
      · have hfound : (publicMatch identities 0 candidates ⟨[], none⟩).errors = [] :=
          hmatch.mpr ⟨rfl, hambiguous⟩
        have hchecked : checked = match (publicMatch identities 0 candidates ⟨[], none⟩).positions with
            | some positions => .passed identities[positions.1]?.toList candidates[positions.2]?.toList
            | none => if untagged candidates = [] then .miss else .passed identities (untagged candidates) := by
          simp only [checked, publicChecks, hsorted, hnone, hfound, ne_eq, not_true_eq_false, or_false,
            if_false, untagged]
          rfl
        refine Or.inr ⟨hwell, hambiguous, ?_⟩
        rw [hchecked]
        have hstart : (⟨[], none⟩ : PublicMatch).positions = none := rfl
        rcases publicMatch_positions identities 0 candidates hstart with hno | hsome
        · rw [hno.2]
          refine Or.inr ⟨hno.1, ?_⟩
          by_cases huntagged : untagged candidates = []
          · exact Or.inl ⟨huntagged, if_pos huntagged⟩
          · exact Or.inr ⟨huntagged, if_neg huntagged⟩
        · obtain ⟨candidate, identity, i, k, hcandidate, hidentity, hpositions, hk, hi⟩ := hsome
          rw [Nat.zero_add] at hpositions
          refine Or.inl ⟨candidate, identity, hcandidate, hidentity, ?_⟩
          simp [hpositions, hk, hi]
  · have hsorted : (sortStanzas C fileIndex 0 stanzas).1 ≠ [] := fun h => hwell (herrors.mp h)
    exact Or.inl ⟨Or.inl hwell, _, hsorted, by simp [checked, publicChecks, hsorted]⟩

end Specifications

end AgePluginPhone.Desktop
