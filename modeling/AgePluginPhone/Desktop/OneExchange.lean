import AgePluginPhone.Desktop.UnwrapFiles
import AgePluginPhone.Library.Splits

/-!
# One exchange for each file

Whatever the host answers, an invocation asks the phone at most once for a file, only after the
checks of that file, and reports for each file what came of it.
-/

namespace AgePluginPhone.Desktop

open Library AgePluginPhone.Core

section Selection

variable {C : Crates} {identities chosen : List (Identity C)} {candidates : List Candidate}
  {stanzas : List TaggedStanza} {fileIndex : ℕ} {state : PrivateState}

/-- A supported stanza is at its place in the file. -/
theorem getElem?_of_mem_supportedFrom {candidate : Candidate} (h : candidate ∈ supportedFrom 0 stanzas) :
    stanzas[candidate.stanzaIndex]? = some candidate.stanza := by
  obtain ⟨place, hplace, rfl⟩ := List.mem_map.mp (List.mem_filter.mp h).1
  exact List.mem_zipIdx_iff_getElem?.mp hplace

/-- Passing the public checks leaves identities and stanzas of the file to select from. -/
theorem publicChecks_passed (h : publicChecks fileIndex identities stanzas = .passed chosen candidates) :
    WellFormed C (supportedFrom 0 stanzas) ∧ ¬ Ambiguous identities (supportedFrom 0 stanzas) ∧
      chosen ⊆ identities ∧ candidates ⊆ supportedFrom 0 stanzas ∧ candidates ≠ [] := by
  rcases publicChecks_cases fileIndex identities stanzas with hrefused | hpassed
  · obtain ⟨-, errors, -, hrefused⟩ := hrefused
    rw [h] at hrefused
    cases hrefused
  · obtain ⟨hwell, hambiguous, hpassed⟩ := hpassed
    refine ⟨hwell, hambiguous, ?_⟩
    rcases hpassed with hnative | ⟨-, hphone⟩
    · obtain ⟨candidate, identity, hcandidate, hidentity, hnative⟩ := hnative
      rw [h] at hnative
      obtain ⟨rfl, rfl⟩ := PublicChecks.passed.inj hnative
      refine ⟨?_, ?_, by simp⟩
      · simpa using List.mem_of_find?_eq_some hidentity
      · simpa using List.mem_of_find?_eq_some hcandidate
    · rcases hphone with hmiss | hsearch
      · rw [h] at hmiss
        cases hmiss.2
      · obtain ⟨hsome, hsearch⟩ := hsearch
        rw [h] at hsearch
        obtain ⟨rfl, rfl⟩ := PublicChecks.passed.inj hsearch
        exact ⟨List.Subset.refl _, List.filter_subset_self _, hsome⟩

private theorem selectCandidate_unfold (hne : chosen ≠ []) :
    selectCandidate state chosen candidates fileIndex =
      if (candidates.any fun c => c.stanza.tag = stanzaTag ∨ c.stanza.tag = Tag.stanzaTag) then
        selectAnonymous state chosen candidates fileIndex
      else searchIdentities candidates 0 (openIdentities state 0 chosen).1 >>= fun found =>
        match found with
        | some positions => .ok (assemble chosen (openIdentities state 0 chosen).1 candidates positions)
        | none => if (openIdentities state 0 chosen).2 = [] then .ok none
            else .error (openIdentities state 0 chosen).2 := by
  rw [selectCandidate, if_neg hne]
  rfl

private theorem selectAnonymous_cases (state : PrivateState) (chosen : List (Identity C))
    (candidates : List Candidate) (fileIndex : ℕ) : (∃ identity candidate, chosen = [identity] ∧ candidates = [candidate]) ∨
    selectAnonymous state chosen candidates fileIndex = .error (candidates.map fun candidate =>
      .stanza fileIndex candidate.stanzaIndex "anonymous v1 phone stanza cannot be selected safely") := by
  cases chosen with
  | nil => exact Or.inr rfl
  | cons identity chosen =>
      cases chosen with
      | cons => exact Or.inr rfl
      | nil =>
          cases candidates with
          | nil => exact Or.inr rfl
          | cons candidate candidates =>
              cases candidates with
              | cons => exact Or.inr rfl
              | nil => exact Or.inl ⟨identity, candidate, rfl, rfl⟩

/-- What is selected is an identity of the list and one of the candidates. -/
theorem selectCandidate_mem {selected : SelectedCandidate}
    (h : selectCandidate state chosen candidates fileIndex = .ok (some selected)) :
    ∃ identity ∈ chosen, ∃ candidate ∈ candidates, selected.identityIndex = identity.index ∧
      selected.stub = identity.stub ∧ selected.stanzaIndex = candidate.stanzaIndex ∧
      selected.stanza = candidate.stanza := by
  have hne : chosen ≠ [] := by
    intro hempty
    rw [selectCandidate, if_pos hempty] at h
    cases h
  rw [selectCandidate_unfold hne] at h
  split at h
  · rcases selectAnonymous_cases state chosen candidates fileIndex with hone | hmany
    · obtain ⟨identity, candidate, rfl, rfl⟩ := hone
      simp only [selectAnonymous, bind_eq_ok, mapError_ok, pure_eq_ok, Except.ok.injEq,
        Option.some.injEq] at h
      obtain ⟨locator, -, desktop, -, rfl⟩ := h
      exact ⟨identity, List.mem_cons_self, candidate, List.mem_cons_self, rfl, rfl, rfl, rfl⟩
    · rw [hmany] at h
      cases h
  · obtain ⟨found, -, hfound⟩ := bind_eq_ok.mp h
    cases found with
    | none =>
        by_cases herrors : (openIdentities state 0 chosen).2 = []
        · simp [herrors] at hfound
        · simp [herrors] at hfound
    | some positions =>
        have hassemble : assemble chosen (openIdentities state 0 chosen).1 candidates positions =
            some selected := Except.ok.inj hfound
        obtain ⟨opened, hopened, hrest⟩ := Option.bind_eq_some_iff.mp hassemble
        obtain ⟨identity, hidentity, hrest⟩ := Option.bind_eq_some_iff.mp hrest
        obtain ⟨candidate, hcandidate, hrest⟩ := Option.bind_eq_some_iff.mp hrest
        obtain rfl := Option.some.inj hrest
        exact ⟨identity, List.mem_of_getElem? hidentity, candidate, List.mem_of_getElem? hcandidate,
          rfl, rfl, rfl, rfl⟩

private theorem searchCandidates_error {opened : OpenedIdentity C} {start : ℕ} {errors : List IdentityError}
    (h : searchCandidates opened start candidates = .error errors) : errors ≠ [] := by
  induction candidates generalizing start with
  | nil => cases h
  | cons candidate candidates ih =>
      unfold searchCandidates at h
      split at h
      · cases h
      · exact ih h
      · obtain rfl := Except.error.inj h
        exact List.cons_ne_nil _ _

private theorem searchIdentities_error {start : ℕ} {opened : List (OpenedIdentity C)}
    {errors : List IdentityError} (h : searchIdentities candidates start opened = .error errors) :
    errors ≠ [] := by
  induction opened generalizing start with
  | nil => cases h
  | cons first opened ih =>
      unfold searchIdentities at h
      cases hsearch : searchCandidates first 0 candidates with
      | error failure =>
          rw [hsearch, error_bind] at h
          obtain rfl := Except.error.inj h
          exact searchCandidates_error hsearch
      | ok found =>
          rw [hsearch, ok_bind] at h
          cases found with
          | none => exact ih h
          | some position => cases h

/-- A failed selection says why. -/
theorem selectCandidate_errors {errors : List IdentityError} (hcandidates : candidates ≠ [])
    (h : selectCandidate state chosen candidates fileIndex = .error errors) : errors ≠ [] := by
  by_cases hne : chosen = []
  · rw [selectCandidate, if_pos hne] at h
    obtain rfl := Except.error.inj h
    exact List.cons_ne_nil _ _
  rw [selectCandidate_unfold hne] at h
  split at h
  · rcases selectAnonymous_cases state chosen candidates fileIndex with hone | hmany
    · obtain ⟨identity, candidate, rfl, rfl⟩ := hone
      unfold selectAnonymous at h
      cases hlocator : state.openPairingLocator identity.stub with
      | error failure =>
          simp only [hlocator, Except.mapError, error_bind, Except.error.injEq] at h
          rw [← h]
          exact List.cons_ne_nil _ _
      | ok locator =>
          cases hdesktop : state.openDesktopKeyState locator.desktopState with
          | error failure =>
              simp only [hlocator, hdesktop, Except.mapError, ok_bind, error_bind, Except.error.injEq] at h
              rw [← h]
              exact List.cons_ne_nil _ _
          | ok desktop =>
              simp only [hlocator, hdesktop, Except.mapError, ok_bind, pure_eq_ok, reduceCtorEq] at h
    · rw [hmany] at h
      obtain rfl := Except.error.inj h
      simpa using hcandidates
  · cases hsearch : searchIdentities candidates 0 (openIdentities state 0 chosen).1 with
    | error failure =>
        rw [hsearch, error_bind] at h
        obtain rfl := Except.error.inj h
        exact searchIdentities_error hsearch
    | ok found =>
        rw [hsearch, ok_bind] at h
        cases found with
        | some positions => cases h
        | none =>
            by_cases herrors : (openIdentities state 0 chosen).2 = []
            · simp [herrors] at h
            · simp only [herrors, if_false, Except.error.injEq] at h
              rw [← h]
              exact herrors

end Selection

section Files

variable {C : Crates} {R σ : Type} {m : TextMinicbor} {store : ReplayStore σ}
  {identities : List (Identity C)} {stanzas : List TaggedStanza} {fileIndex : ℕ}
  {events : List (UnwrapEvent C R σ)} {outcome : FileOutcome}

/-- The pairing and the stanza selected for a file that passed its public checks, with the private
state read for it. -/
def SelectedIn (identities : List (Identity C)) (file : ℕ) (stanzas : List TaggedStanza)
    (events : List (UnwrapEvent C R σ)) (selected : Option SelectedCandidate) : Prop :=
  ∃ root state chosen candidates, (⟨.privateState file root, state⟩ : UnwrapEvent C R σ) ∈ events ∧
    publicChecks file identities stanzas = .passed chosen candidates ∧
    selectCandidate state chosen candidates file = .ok selected

/-- The session asks for the file key of the selected stanza, one of the file, with the pairing of the
selected identity. -/
structure BuiltFor (identities : List (Identity C)) (stanzas : List TaggedStanza)
    (selected : SelectedCandidate) (session : DesktopUnwrapSession C) : Prop where
  begun : ∃ time random, DesktopUnwrapSession.begin C selected.stub selected.desktop selected.stanza
    (some "reference age identity-v1") time random = .ok session
  identity : ∃ identity ∈ identities, selected.identityIndex = identity.index ∧ selected.stub = identity.stub
  stanza : stanzas[selected.stanzaIndex]? = some selected.stanza
  request : session.request.payload.recipientStanza = selected.stanza ∧
    session.request.payload.identityId = selected.stub.identityId ∧
    session.request.payload.desktopId = selected.stub.desktopId

theorem SelectedIn.builtFor {selected : SelectedCandidate} {session : DesktopUnwrapSession C} {time : U64}
    {random : SessionRandom C} (h : SelectedIn identities fileIndex stanzas events (some selected))
    (hbegin : DesktopUnwrapSession.begin C selected.stub selected.desktop selected.stanza
      (some "reference age identity-v1") time random = .ok session) :
    BuiltFor identities stanzas selected session := by
  obtain ⟨root, state, chosen, candidates, -, hchecked, hselect⟩ := h
  obtain ⟨-, -, hchosen, hcandidates, -⟩ := publicChecks_passed hchecked
  obtain ⟨identity, hidentity, candidate, hcandidate, hindex, hstub, hplace, hstanza⟩ :=
    selectCandidate_mem hselect
  obtain ⟨-, -, -, hrequest⟩ := DesktopUnwrapSession.begin_eq_ok hbegin
  refine ⟨⟨time, random, hbegin⟩, ⟨identity, hchosen hidentity, hindex, hstub⟩, ?_, hrequest⟩
  rw [hplace, hstanza]
  exact getElem?_of_mem_supportedFrom (hcandidates hcandidate)

theorem AnswerRun.quiet {selected : SelectedCandidate} {session : DesktopUnwrapSession C} {replay : σ}
    {answer : Except IoError (Except ExchangeError (List Byte))}
    (h : AnswerRun m store fileIndex selected session replay answer events outcome) :
    ∀ event ∈ events, event.1.file = fileIndex ∧ event.1.isAuxiliary = true := by
  cases h <;> simp [UnwrapQuery.file, UnwrapQuery.isAuxiliary]

theorem FileRun.file_eq (h : FileRun m store fileIndex identities stanzas events outcome) :
    ∀ event ∈ events, event.1.file = fileIndex := by
  cases h with
  | refused | miss | rootless | unselected | unmatched => simp [UnwrapQuery.file]
  | selected _ _ hrun =>
      refine List.forall_mem_cons.mpr ⟨rfl, List.forall_mem_cons.mpr ⟨rfl, ?_⟩⟩
      cases hrun with
      | stopped hquiet | clockless hquiet => exact fun event hevent => (hquiet event hevent).1
      | exchanged hquiet _ hanswer =>
          intro event hevent
          rcases List.mem_append.mp hevent with hevent | hevent
          · exact (hquiet event hevent).1
          · rcases List.mem_cons.mp hevent with rfl | hevent
            · rfl
            · exact (hanswer.quiet event hevent).1

/-- Nothing is asked for a file that has not passed its public checks. -/
theorem FileRun.checked (h : FileRun m store fileIndex identities stanzas events outcome)
    (hevents : events ≠ []) :
    ∃ chosen candidates, publicChecks fileIndex identities stanzas = .passed chosen candidates := by
  cases h with
  | refused | miss => exact absurd rfl hevents
  | rootless h | unselected h | unmatched h | selected h => exact ⟨_, _, h⟩

/-- Either a file goes without an exchange, or there is one, for the stanza selected before it. -/
theorem FileRun.exchange_cases (h : FileRun m store fileIndex identities stanzas events outcome) :
    ((∀ event ∈ events, event.1.isExchange = false) ∧ (outcome = .absent ∨
      (∃ errors, outcome = .failed errors) ∨ outcome = .aborted ⟨"system clock is unavailable"⟩)) ∨
    ∃ before prepared selected session replay answer after,
      events = before ++ ⟨.exchange fileIndex prepared session.signedRequest session.display, answer⟩ :: after ∧
      (∀ event ∈ before ++ after, event.1.isExchange = false) ∧
      SelectedIn identities fileIndex stanzas before (some selected) ∧
      BuiltFor identities stanzas selected session ∧
      AnswerRun m store fileIndex selected session replay answer after outcome := by
  cases h with
  | refused => exact Or.inl ⟨by simp, Or.inr (Or.inl ⟨_, rfl⟩)⟩
  | miss => exact Or.inl ⟨by simp, Or.inl rfl⟩
  | rootless | unselected =>
      exact Or.inl ⟨by simp [UnwrapQuery.isExchange], Or.inr (Or.inl ⟨_, rfl⟩)⟩
  | unmatched => exact Or.inl ⟨by simp [UnwrapQuery.isExchange], Or.inl rfl⟩
  | @selected _ _ root state _ _ _ hchecked hselect hrun =>
      have hfirst {own : List (UnwrapEvent C R σ)}
          (hquiet : ∀ event ∈ own, event.1.file = fileIndex ∧ event.1.isAuxiliary = true) :
          ∀ event ∈ (⟨.resolveRoot fileIndex, .ok root⟩ : UnwrapEvent C R σ) ::
            ⟨.privateState fileIndex root, state⟩ :: own, event.1.isExchange = false := by
        refine List.forall_mem_cons.mpr ⟨rfl, List.forall_mem_cons.mpr ⟨rfl, ?_⟩⟩
        exact fun event hevent => UnwrapQuery.isExchange_of_isAuxiliary (hquiet event hevent).2
      cases hrun with
      | stopped hquiet => exact Or.inl ⟨hfirst hquiet, Or.inr (Or.inl ⟨_, rfl⟩)⟩
      | clockless hquiet => exact Or.inl ⟨hfirst hquiet, Or.inr (Or.inr rfl)⟩
      | @exchanged own prepared replay time random session answer after _ hquiet hbegin hanswer =>
          have hselected : SelectedIn identities fileIndex stanzas ((⟨.resolveRoot fileIndex, .ok root⟩ :
              UnwrapEvent C R σ) :: ⟨.privateState fileIndex root, state⟩ :: own) (some _) :=
            ⟨root, state, _, _, by simp, hchecked, hselect⟩
          refine Or.inr ⟨⟨.resolveRoot fileIndex, .ok root⟩ :: ⟨.privateState fileIndex root, state⟩ :: own,
            prepared, _, session, replay, answer, after, rfl, ?_, hselected, hselected.builtFor hbegin,
            hanswer⟩
          intro event hevent
          rcases List.mem_append.mp hevent with hevent | hevent
          · exact hfirst hquiet event hevent
          · exact UnwrapQuery.isExchange_of_isAuxiliary (hanswer.quiet event hevent).2

/-- At most one exchange. -/
theorem FileRun.once (h : FileRun m store fileIndex identities stanzas events outcome) :
    (events.filter fun event => event.1.isExchange).length ≤ 1 := by
  rcases h.exchange_cases with hnone | hone
  · rw [List.filter_eq_nil_iff.mpr (by simpa using hnone.1)]
    exact Nat.zero_le _
  · obtain ⟨before, _, _, _, _, _, after, rfl, hquiet, -⟩ := hone
    have hbefore : before.filter (fun event => event.1.isExchange) = [] := by
      apply List.filter_eq_nil_iff.mpr
      intro event hevent
      simp [hquiet event (List.mem_append_left _ hevent)]
    have hafter : after.filter (fun event => event.1.isExchange) = [] := by
      apply List.filter_eq_nil_iff.mpr
      intro event hevent
      simp [hquiet event (List.mem_append_right _ hevent)]
    rw [List.filter_append, hbefore, List.filter_cons_of_pos rfl, hafter]
    exact Nat.le_refl 1

/-- An exchange of a file, with what came before and what follows it. -/
theorem FileRun.exchange {before after : List (UnwrapEvent C R σ)} {event : UnwrapEvent C R σ}
    (h : FileRun m store fileIndex identities stanzas events outcome)
    (hevents : events = before ++ event :: after) (hexchange : event.1.isExchange = true) :
    ∃ prepared selected session replay answer,
      event = ⟨.exchange fileIndex prepared session.signedRequest session.display, answer⟩ ∧
      SelectedIn identities fileIndex stanzas before (some selected) ∧
      BuiltFor identities stanzas selected session ∧
      AnswerRun m store fileIndex selected session replay answer after outcome := by
  rcases h.exchange_cases with hnone | hone
  · have hquiet := hnone.1 event (by simp [hevents])
    rw [hexchange] at hquiet
    cases hquiet
  · obtain ⟨own, prepared, selected, session, replay, answer, rest, hplace, hquiet, hselected, hbuilt,
      hanswer⟩ := hone
    obtain ⟨rfl, rfl, rfl⟩ := Splits.only_unique
      (P := fun event : UnwrapEvent C R σ => event.1.isExchange = true) (hplace.symm.trans hevents)
      (by simpa using hquiet) hexchange
    exact ⟨prepared, selected, session, replay, answer, rfl, hselected, hbuilt, hanswer⟩

theorem SelectedIn.mono {events' : List (UnwrapEvent C R σ)} {selected : Option SelectedCandidate}
    (h : SelectedIn identities fileIndex stanzas events selected) (hsubset : events ⊆ events') :
    SelectedIn identities fileIndex stanzas events' selected := by
  obtain ⟨root, state, chosen, candidates, hmem, hselect⟩ := h
  exact ⟨root, state, chosen, candidates, hsubset hmem, hselect⟩

/-- A file key is what the session of the exchange makes of the response. -/
def Received (m : TextMinicbor) (store : ReplayStore σ) (identities : List (Identity C)) (file : ℕ)
    (stanzas : List TaggedStanza) (events : List (UnwrapEvent C R σ)) (key : Bytes 16) : Prop :=
  ∃ (prepared : R) (selected : SelectedCandidate) (session : DesktopUnwrapSession C) (response : List Byte)
    (replay : σ) (time : U64),
    SelectedIn identities file stanzas events (some selected) ∧
    BuiltFor identities stanzas selected session ∧
    (⟨.exchange file prepared session.signedRequest session.display, .ok (.ok response)⟩ :
      UnwrapEvent C R σ) ∈ events ∧
    (session.receiveResponse m store response replay time).1 = .ok key

theorem Received.mono {events' : List (UnwrapEvent C R σ)} {key : Bytes 16}
    (h : Received m store identities fileIndex stanzas events key) (hsubset : events ⊆ events') :
    Received m store identities fileIndex stanzas events' key := by
  obtain ⟨prepared, selected, session, response, replay, time, hselected, hbuilt, hmem, hkey⟩ := h
  exact ⟨prepared, selected, session, response, replay, time, hselected.mono hsubset, hbuilt,
    hsubset hmem, hkey⟩

theorem FileRun.received {key : Bytes 16}
    (h : FileRun m store fileIndex identities stanzas events (.fileKey key)) :
    Received m store identities fileIndex stanzas events key := by
  rcases h.exchange_cases with hnone | hone
  · obtain ⟨-, hnone | ⟨errors, hnone⟩ | hnone⟩ := hnone <;> cases hnone
  · obtain ⟨before, prepared, selected, session, replay, answer, after, rfl, -, hselected, hbuilt,
      hanswer⟩ := hone
    cases hanswer with
    | opened hkey =>
        exact ⟨prepared, selected, session, _, replay, _, hselected.mono (List.subset_append_left _ _),
          hbuilt, by simp, hkey⟩

/-- The phone was asked for the file and the user cancelled. -/
def Cancelled (file : ℕ) (events : List (UnwrapEvent C R σ)) : Prop :=
  ∃ prepared request display,
    (⟨.exchange file prepared request display, .ok (.error .cancelled)⟩ : UnwrapEvent C R σ) ∈ events

theorem FileRun.cancelled {errors : List IdentityError}
    (h : FileRun m store fileIndex identities stanzas events (.cancelled errors)) :
    Cancelled fileIndex events := by
  rcases h.exchange_cases with hnone | hone
  · obtain ⟨-, hnone | ⟨errors, hnone⟩ | hnone⟩ := hnone <;> cases hnone
  · obtain ⟨before, prepared, selected, session, replay, answer, after, rfl, -, -, -, hanswer⟩ := hone
    cases hanswer with
    | cancelled => exact ⟨prepared, _, _, List.mem_append_right _ List.mem_cons_self⟩

/-- The whole invocation fails when the clock or the exchange does. -/
def Aborted (events : List (UnwrapEvent C R σ)) (failure : IoError) : Prop :=
  failure = ⟨"system clock is unavailable"⟩ ∨ ∃ file prepared request display,
    (⟨.exchange file prepared request display, .error failure⟩ : UnwrapEvent C R σ) ∈ events

theorem FileRun.aborted {failure : IoError}
    (h : FileRun m store fileIndex identities stanzas events (.aborted failure)) :
    Aborted events failure := by
  rcases h.exchange_cases with hnone | hone
  · obtain ⟨-, hnone | ⟨errors, hnone⟩ | hnone⟩ := hnone
    · cases hnone
    · cases hnone
    · exact Or.inl (FileOutcome.aborted.inj hnone)
  · obtain ⟨before, prepared, selected, session, replay, answer, after, rfl, -, -, -, hanswer⟩ := hone
    cases hanswer with
    | aborted => exact Or.inr ⟨fileIndex, prepared, _, _, List.mem_append_right _ List.mem_cons_self⟩

/-- The errors of a file that failed or was cancelled. -/
theorem FileRun.errors {errors : List IdentityError}
    (h : FileRun m store fileIndex identities stanzas events outcome)
    (houtcome : outcome = .failed errors ∨ outcome = .cancelled errors) : errors ≠ [] := by
  cases h with
  | refused hchecked =>
      obtain rfl : errors = _ := by simpa [eq_comm] using houtcome
      rcases publicChecks_cases fileIndex identities stanzas with hrefused | ⟨-, -, hpassed⟩
      · obtain ⟨-, errors, herrors, hrefused⟩ := hrefused
        rw [hchecked] at hrefused
        obtain rfl := PublicChecks.refused.inj hrefused
        exact herrors
      · rcases hpassed with ⟨_, _, _, _, hpassed⟩ | ⟨_, ⟨-, hpassed⟩ | ⟨-, hpassed⟩⟩ <;>
          rw [hchecked] at hpassed <;> cases hpassed
  | miss | unmatched => simp at houtcome
  | rootless =>
      obtain rfl : errors = _ := by simpa [eq_comm] using houtcome
      exact List.cons_ne_nil _ _
  | unselected hchecked hselect =>
      obtain rfl : errors = _ := by simpa [eq_comm] using houtcome
      exact selectCandidate_errors (publicChecks_passed hchecked).2.2.2.2 hselect
  | selected _ _ hrun =>
      cases hrun with
      | stopped =>
          obtain rfl : errors = _ := by simpa [eq_comm] using houtcome
          exact List.cons_ne_nil _ _
      | clockless => simp at houtcome
      | exchanged _ _ hanswer =>
          cases hanswer with
          | aborted | opened => simp at houtcome
          | cancelled | failed | rejected =>
              obtain rfl : errors = _ := by simpa [eq_comm] using houtcome
              exact List.cons_ne_nil _ _

theorem SelectedRun.not_absent {selected : SelectedCandidate}
    (h : SelectedRun m store fileIndex selected events outcome) : outcome ≠ .absent := by
  cases h with
  | stopped | clockless => exact FileOutcome.noConfusion
  | exchanged _ _ hanswer => cases hanswer <;> exact FileOutcome.noConfusion

/-- After its selection a file asks for no private state. -/
theorem SelectedRun.not_private {selected : SelectedCandidate} {file : ℕ} {root : PathBuf}
    {state : PrivateState} (h : SelectedRun m store fileIndex selected events outcome) :
    (⟨.privateState file root, state⟩ : UnwrapEvent C R σ) ∉ events := by
  intro hmem
  cases h with
  | stopped hquiet | clockless hquiet =>
      obtain ⟨-, hauxiliary⟩ := hquiet _ hmem
      cases hauxiliary
  | exchanged hquiet _ hanswer =>
      rcases List.mem_append.mp hmem with hmem | hmem
      · obtain ⟨-, hauxiliary⟩ := hquiet _ hmem
        cases hauxiliary
      · rcases List.mem_cons.mp hmem with hsame | hmem
        · cases hsame
        · obtain ⟨-, hauxiliary⟩ := hanswer.quiet _ hmem
          cases hauxiliary

/-- The private state read for a file is the one its selection uses. -/
theorem FileRun.read {file : ℕ} {root : PathBuf} {state : PrivateState}
    (h : FileRun m store fileIndex identities stanzas events outcome)
    (hmem : (⟨.privateState file root, state⟩ : UnwrapEvent C R σ) ∈ events) :
    ∃ chosen candidates, publicChecks fileIndex identities stanzas = .passed chosen candidates ∧
      (selectCandidate state chosen candidates fileIndex = .ok none → outcome = .absent) := by
  cases h with
  | refused | miss => exact absurd hmem List.not_mem_nil
  | rootless => cases List.mem_singleton.mp hmem
  | unselected hchecked hselect =>
      rcases List.mem_cons.mp hmem with hsame | hmem
      · cases hsame
      · cases List.mem_singleton.mp hmem
        refine ⟨_, _, hchecked, fun hnone => ?_⟩
        rw [hselect] at hnone
        cases hnone
  | unmatched hchecked _ =>
      rcases List.mem_cons.mp hmem with hsame | hmem
      · cases hsame
      · cases List.mem_singleton.mp hmem
        exact ⟨_, _, hchecked, fun _ => rfl⟩
  | selected hchecked hselect hrun =>
      rcases List.mem_cons.mp hmem with hsame | hmem
      · cases hsame
      · rcases List.mem_cons.mp hmem with hsame | hmem
        · cases hsame
          refine ⟨_, _, hchecked, fun hnone => ?_⟩
          rw [hselect] at hnone
          cases hnone
        · exact absurd hmem hrun.not_private

/-- A plain non-match: nothing to select from, or nothing selected. -/
def Missed (identities : List (Identity C)) (file : ℕ) (stanzas : List TaggedStanza)
    (events : List (UnwrapEvent C R σ)) : Prop :=
  publicChecks file identities stanzas = .miss ∨ SelectedIn identities file stanzas events none

theorem FileRun.absent_iff (h : FileRun m store fileIndex identities stanzas events outcome) :
    outcome = .absent ↔ Missed identities fileIndex stanzas events := by
  constructor
  · intro habsent
    subst habsent
    cases h with
    | miss hchecked => exact Or.inl hchecked
    | unmatched hchecked hselect =>
        exact Or.inr ⟨_, _, _, _, List.mem_cons_of_mem _ List.mem_cons_self, hchecked, hselect⟩
    | selected _ _ hrun => exact absurd rfl hrun.not_absent
  · intro hmissed
    rcases hmissed with hmiss | hnone
    · cases h with
      | miss | unmatched => rfl
      | refused h | rootless h | unselected h | selected h =>
          rw [hmiss] at h
          cases h
    · obtain ⟨root, state, chosen, candidates, hmem, hchecked, hselect⟩ := hnone
      obtain ⟨chosen', candidates', hchecked', habsent⟩ := h.read hmem
      rw [hchecked] at hchecked'
      obtain ⟨rfl, rfl⟩ := PublicChecks.passed.inj hchecked'
      exact habsent hselect

end Files

section Calls

variable {C : Crates} {R σ : Type} {m : TextMinicbor} {store : ReplayStore σ}
  {identities : List (Identity C)} {files : List (List TaggedStanza)} {fileIndex : ℕ}
  {results : Results} {events : List (UnwrapEvent C R σ)} {result : Except IoError Results}

/-- The result of a file in an invocation that returns results. -/
def FileOutcome.Reports : FileOutcome → Option (Except (List IdentityError) (Bytes 16)) → Prop
  | .absent, reported => reported = none
  | .failed errors, reported => reported = some (.error errors)
  | .fileKey key, reported => reported = some (.ok key)
  | .cancelled errors, reported => reported = some (.error errors)
  | .aborted _, _ => False

theorem CallRun.file_mem (h : CallRun m store identities fileIndex files results events result) :
    ∀ event ∈ events, fileIndex ≤ event.1.file ∧ event.1.file < fileIndex + files.length := by
  induction h with
  | finished => simp
  | absent hfile _ ih | failed hfile _ ih | fileKey hfile _ ih =>
      intro event hevent
      rw [List.length_cons]
      rcases List.mem_append.mp hevent with hevent | hevent
      · rw [hfile.file_eq event hevent]
        omega
      · obtain ⟨hge, hlt⟩ := ih event hevent
        omega
  | cancelled hfile | aborted hfile =>
      intro event hevent
      rw [hfile.file_eq event hevent, List.length_cons]
      omega

/-- The results of other files stay. -/
theorem CallRun.keeps {results' : Results}
    (h : CallRun m store identities fileIndex files results events result)
    (hresult : result = .ok results') {file : ℕ}
    (hout : file < fileIndex ∨ fileIndex + files.length ≤ file) : results' file = results file := by
  induction h with
  | finished =>
      obtain rfl := Except.ok.inj hresult
      rfl
  | absent _ _ ih =>
      rw [List.length_cons] at hout
      exact ih hresult (by omega)
  | failed _ _ ih | fileKey _ _ ih =>
      rw [List.length_cons] at hout
      rw [ih hresult (by omega)]
      exact Function.update_of_ne (by omega) _ _
  | cancelled =>
      rw [List.length_cons] at hout
      obtain rfl := Except.ok.inj hresult
      exact Function.update_of_ne (by omega) _ _
  | aborted => cases hresult

/-- A file of an invocation is processed, with its own events and its own result, or it is left out
after an earlier one ended the loop. -/
def Accounted (m : TextMinicbor) (store : ReplayStore σ) (identities : List (Identity C)) (file : ℕ)
    (stanzas : List TaggedStanza) (events : List (UnwrapEvent C R σ)) (result : Except IoError Results) :
    Prop :=
  (∃ outcome, FileRun m store file identities stanzas (events.filter fun event => event.1.file = file) outcome ∧
    ∀ results, result = .ok results → outcome.Reports (results file)) ∨
  ((events.filter fun event => event.1.file = file) = [] ∧
    ∀ results, result = .ok results → results file = none ∧ ∃ earlier < file, Cancelled earlier events)

section Accounts

variable {stanzas stanzas' : List TaggedStanza} {before after : List (UnwrapEvent C R σ)}
  {outcome : FileOutcome}

theorem Accounted.head (hfile : FileRun m store fileIndex identities stanzas before outcome)
    (hafter : ∀ event ∈ after, fileIndex + 1 ≤ event.1.file)
    (hresult : ∀ results, result = .ok results → outcome.Reports (results fileIndex)) :
    Accounted m store identities fileIndex stanzas (before ++ after) result := by
  have hbefore : before.filter (fun event => event.1.file = fileIndex) = before := by
    apply List.filter_eq_self.mpr
    intro event hevent
    simp [hfile.file_eq event hevent]
  have hnone : after.filter (fun event => event.1.file = fileIndex) = [] := by
    apply List.filter_eq_nil_iff.mpr
    intro event hevent
    have hge := hafter event hevent
    simp only [decide_eq_true_eq]
    omega
  refine Or.inl ⟨outcome, ?_, hresult⟩
  rw [List.filter_append, hbefore, hnone, List.append_nil]
  exact hfile

theorem Accounted.last (hfile : FileRun m store fileIndex identities stanzas events outcome)
    (hresult : ∀ results, result = .ok results → outcome.Reports (results fileIndex)) :
    Accounted m store identities fileIndex stanzas events result := by
  have hnone : ∀ event ∈ ([] : List (UnwrapEvent C R σ)), fileIndex + 1 ≤ event.1.file := by simp
  simpa using Accounted.head hfile hnone hresult

theorem Accounted.tail {file : ℕ} (hfile : FileRun m store fileIndex identities stanzas before outcome)
    (hlt : fileIndex < file) (h : Accounted m store identities file stanzas' after result) :
    Accounted m store identities file stanzas' (before ++ after) result := by
  have hnone : before.filter (fun event => event.1.file = file) = [] := by
    apply List.filter_eq_nil_iff.mpr
    intro event hevent
    have heq := hfile.file_eq event hevent
    simp only [decide_eq_true_eq]
    omega
  rw [Accounted, List.filter_append, hnone, List.nil_append]
  rcases h with hown | hleft
  · exact Or.inl hown
  · refine Or.inr ⟨hleft.1, fun results hresult => ?_⟩
    obtain ⟨habsent, earlier, hearlier, prepared, request, display, hmem⟩ := hleft.2 results hresult
    exact ⟨habsent, earlier, hearlier, prepared, request, display, List.mem_append_right _ hmem⟩

/-- A file that ends the loop leaves out the later ones. -/
theorem Accounted.stopped {file : ℕ} (hfile : FileRun m store fileIndex identities stanzas events outcome)
    (hlt : fileIndex < file) (hresult : ∀ results, result = .ok results →
      results file = none ∧ Cancelled fileIndex events) :
    Accounted m store identities file stanzas' events result := by
  refine Or.inr ⟨?_, fun results hok => ?_⟩
  · apply List.filter_eq_nil_iff.mpr
    intro event hevent
    have heq := hfile.file_eq event hevent
    simp only [decide_eq_true_eq]
    omega
  · obtain ⟨hnone, hcancelled⟩ := hresult results hok
    exact ⟨hnone, fileIndex, hlt, hcancelled⟩

end Accounts

theorem CallRun.accounted (h : CallRun m store identities fileIndex files results events result)
    (hresults : ∀ file, fileIndex ≤ file → results file = none) {k : ℕ} {stanzas : List TaggedStanza}
    (hk : files[k]? = some stanzas) :
    Accounted m store identities (fileIndex + k) stanzas events result := by
  induction h generalizing k with
  | finished => simp at hk
  | absent hfile hrest ih =>
      cases k with
      | zero =>
          obtain rfl := Option.some.inj hk
          rw [Nat.add_zero]
          refine Accounted.head hfile (fun event hevent => (hrest.file_mem event hevent).1) fun results' hresult => ?_
          rw [FileOutcome.Reports, hrest.keeps hresult (Or.inl (Nat.lt_succ_self _))]
          exact hresults _ (Nat.le_refl _)
      | succ k =>
          rw [Nat.add_comm k, ← Nat.add_assoc]
          refine Accounted.tail hfile (by omega) (ih (fun file hle => ?_) hk)
          exact hresults file (by omega)
  | failed hfile hrest ih | fileKey hfile hrest ih =>
      cases k with
      | zero =>
          obtain rfl := Option.some.inj hk
          rw [Nat.add_zero]
          refine Accounted.head hfile (fun event hevent => (hrest.file_mem event hevent).1) fun results' hresult => ?_
          rw [FileOutcome.Reports, hrest.keeps hresult (Or.inl (Nat.lt_succ_self _))]
          exact Function.update_self _ _ _
      | succ k =>
          rw [Nat.add_comm k, ← Nat.add_assoc]
          refine Accounted.tail hfile (by omega) (ih (fun file hle => ?_) hk)
          rw [Results.insert, Function.update_of_ne (by omega)]
          exact hresults file (by omega)
  | cancelled hfile =>
      cases k with
      | zero =>
          obtain rfl := Option.some.inj hk
          refine Accounted.last hfile fun results' hresult => ?_
          obtain rfl := Except.ok.inj hresult
          exact Function.update_self _ _ _
      | succ k =>
          refine Accounted.stopped hfile (by omega) fun results' hresult => ?_
          obtain rfl := Except.ok.inj hresult
          rw [Results.insert, Function.update_of_ne (by omega)]
          exact ⟨hresults _ (by omega), hfile.cancelled⟩
  | aborted hfile =>
      cases k with
      | zero =>
          obtain rfl := Option.some.inj hk
          exact Accounted.last hfile fun results' hresult => by cases hresult
      | succ k => exact Accounted.stopped hfile (by omega) fun results' hresult => by cases hresult

/-- A cancelled exchange ends its file. -/
theorem FileRun.cancelled_last {stanzas : List TaggedStanza} {outcome : FileOutcome}
    {before after : List (UnwrapEvent C R σ)} {file : ℕ} {prepared : R} {request : List Byte}
    {display : UnwrapDisplay} (h : FileRun m store fileIndex identities stanzas events outcome)
    (hevents : events = before ++ ⟨.exchange file prepared request display, .ok (.error .cancelled)⟩ :: after) :
    after = [] ∧ ∃ errors, outcome = .cancelled errors := by
  obtain ⟨_, _, _, _, answer, hevent, -, -, hanswer⟩ := h.exchange hevents rfl
  cases hevent
  cases hanswer with
  | cancelled => exact ⟨rfl, _, rfl⟩
  | failed hother => exact absurd rfl hother

/-- Nothing follows a cancelled exchange. -/
theorem CallRun.cancelled_last {before after : List (UnwrapEvent C R σ)} {file : ℕ} {prepared : R}
    {request : List Byte} {display : UnwrapDisplay}
    (h : CallRun m store identities fileIndex files results events result)
    (hevents : events = before ++ ⟨.exchange file prepared request display, .ok (.error .cancelled)⟩ :: after) :
    after = [] := by
  induction h generalizing before with
  | finished => simp at hevents
  | absent hfile _ ih | failed hfile _ ih | fileKey hfile _ ih =>
      rcases List.append_eq_append_iff.mp hevents with hlater | hwithin
      · obtain ⟨between, rfl, hrest⟩ := hlater
        exact ih hrest
      · obtain ⟨between, hown, hrest⟩ := hwithin
        cases between with
        | nil =>
            rw [← List.nil_append (_ :: after)] at hrest
            exact ih hrest.symm
        | cons first between =>
            obtain ⟨rfl, -⟩ := List.cons.inj hrest
            obtain ⟨-, errors, houtcome⟩ := hfile.cancelled_last hown
            cases houtcome
  | cancelled hfile | aborted hfile => exact (hfile.cancelled_last hevents).1

theorem FileRun.not_cancelled {stanzas : List TaggedStanza} {outcome : FileOutcome} {file : ℕ}
    (h : FileRun m store fileIndex identities stanzas events outcome)
    (houtcome : ∀ errors, outcome ≠ .cancelled errors) : ¬ Cancelled file events := by
  intro hcancelled
  obtain ⟨prepared, request, display, hmem⟩ := hcancelled
  obtain ⟨before, after, hevents⟩ := List.append_of_mem hmem
  obtain ⟨-, errors, hcancelled⟩ := h.cancelled_last hevents
  exact houtcome errors hcancelled

theorem Cancelled.of_append {file : ℕ} {before after : List (UnwrapEvent C R σ)}
    (h : Cancelled file (before ++ after)) (hbefore : ¬ Cancelled file before) : Cancelled file after := by
  obtain ⟨prepared, request, display, hmem⟩ := h
  rcases List.mem_append.mp hmem with hmem | hmem
  · exact absurd ⟨prepared, request, display, hmem⟩ hbefore
  · exact ⟨prepared, request, display, hmem⟩

/-- The files after a cancelled one have no result. -/
theorem CallRun.after_cancelled {results' : Results} {earlier file : ℕ}
    (h : CallRun m store identities fileIndex files results events result)
    (hresult : result = .ok results') (hcancelled : Cancelled earlier events) (hlt : earlier < file) :
    results' file = results file := by
  have hearlier : fileIndex ≤ earlier := by
    obtain ⟨_, _, _, hmem⟩ := hcancelled
    exact (h.file_mem _ hmem).1
  induction h with
  | finished =>
      obtain ⟨_, _, _, hmem⟩ := hcancelled
      exact absurd hmem List.not_mem_nil
  | absent hfile hrest ih =>
      have hcancelled := hcancelled.of_append (hfile.not_cancelled (by simp))
      obtain ⟨_, _, _, hmem⟩ := id hcancelled
      exact ih hresult hcancelled (hrest.file_mem _ hmem).1
  | failed hfile hrest ih | fileKey hfile hrest ih =>
      have hcancelled := hcancelled.of_append (hfile.not_cancelled (by simp))
      obtain ⟨_, _, _, hmem⟩ := id hcancelled
      rw [ih hresult hcancelled (hrest.file_mem _ hmem).1]
      exact Function.update_of_ne (by omega) _ _
  | cancelled =>
      obtain rfl := Except.ok.inj hresult
      exact Function.update_of_ne (by omega) _ _
  | aborted => cases hresult

theorem CallRun.aborted_of_error {failure : IoError}
    (h : CallRun m store identities fileIndex files results events result)
    (hresult : result = .error failure) : Aborted events failure := by
  have hmono {before after : List (UnwrapEvent C R σ)} (h : Aborted after failure) :
      Aborted (before ++ after) failure := by
    rcases h with hclock | hexchange
    · exact Or.inl hclock
    · obtain ⟨file, prepared, request, display, hmem⟩ := hexchange
      exact Or.inr ⟨file, prepared, request, display, List.mem_append_right _ hmem⟩
  induction h with
  | finished | cancelled => cases hresult
  | absent _ _ ih | failed _ _ ih | fileKey _ _ ih => exact hmono (ih hresult)
  | aborted hfile =>
      obtain rfl := Except.error.inj hresult
      exact hfile.aborted

/-- What an invocation asks of its host, and what it reports. -/
structure OneExchange (m : TextMinicbor) (store : ReplayStore σ) (identities : List (Identity C))
    (files : List (List TaggedStanza)) (events : List (UnwrapEvent C R σ))
    (result : Except IoError Results) : Prop where
  once : ∀ file, ((events.filter fun event => event.1.file = file).filter
    fun event => event.1.isExchange).length ≤ 1
  checked : ∀ event ∈ events, ∃ stanzas chosen candidates, files[event.1.file]? = some stanzas ∧
    WellFormed C (supportedFrom 0 stanzas) ∧ ¬ Ambiguous identities (supportedFrom 0 stanzas) ∧
    publicChecks event.1.file identities stanzas = .passed chosen candidates
  exchanged : ∀ before event after, events = before ++ event :: after → event.1.isExchange = true →
    ∃ stanzas prepared selected session answer, files[event.1.file]? = some stanzas ∧
      event = ⟨.exchange event.1.file prepared session.signedRequest session.display, answer⟩ ∧
      SelectedIn identities event.1.file stanzas before (some selected) ∧
      BuiltFor identities stanzas selected session
  received : ∀ results, result = .ok results → ∀ file key, results file = some (.ok key) →
    ∃ stanzas, files[file]? = some stanzas ∧ Received m store identities file stanzas events key
  cancelled : ∀ before after file prepared request display,
    events = before ++ ⟨.exchange file prepared request display, .ok (.error .cancelled)⟩ :: after →
    after = []
  absent : ∀ results, result = .ok results → ∀ file stanzas, files[file]? = some stanzas →
    (results file = none ↔
      Missed identities file stanzas events ∨ ∃ earlier < file, Cancelled earlier events)
  errors : ∀ results, result = .ok results → ∀ file errors, results file = some (.error errors) → errors ≠ []
  aborted : ∀ failure, result = .error failure → Aborted events failure

section Whole

theorem CallRun.of_event {event : UnwrapEvent C R σ}
    (h : CallRun m store identities 0 files (fun _ => none) events result) (hevent : event ∈ events) :
    ∃ stanzas outcome, files[event.1.file]? = some stanzas ∧
      FileRun m store event.1.file identities stanzas
        (events.filter fun other => other.1.file = event.1.file) outcome := by
  obtain ⟨-, hlt⟩ := h.file_mem event hevent
  rw [Nat.zero_add] at hlt
  have hfile : files[event.1.file]? = some files[event.1.file] := List.getElem?_eq_getElem hlt
  have haccounted := h.accounted (fun _ _ => rfl) hfile
  rw [Nat.zero_add] at haccounted
  rcases haccounted with hown | hleft
  · obtain ⟨outcome, hown, -⟩ := hown
    exact ⟨_, outcome, hfile, hown⟩
  · exact absurd (decide_eq_true rfl) (List.filter_eq_nil_iff.mp hleft.1 event hevent)

theorem CallRun.once (h : CallRun m store identities 0 files (fun _ => none) events result) (file : ℕ) :
    ((events.filter fun event => event.1.file = file).filter
      fun event => event.1.isExchange).length ≤ 1 := by
  cases hown : events.filter fun event => event.1.file = file with
  | nil => simp
  | cons event own =>
      have hmem : event ∈ events.filter fun event => event.1.file = file := by
        rw [hown]
        exact List.mem_cons_self
      obtain ⟨hevent, hfile⟩ := List.mem_filter.mp hmem
      obtain ⟨stanzas, outcome, -, hrun⟩ := h.of_event hevent
      rw [of_decide_eq_true hfile, hown] at hrun
      exact hrun.once

/-- What a file reports is what its turn of the loop came to. -/
theorem CallRun.of_result {results : Results} {file : ℕ}
    {reported : Except (List IdentityError) (Bytes 16)}
    (h : CallRun m store identities 0 files (fun _ => none) events (.ok results))
    (hreported : results file = some reported) :
    ∃ stanzas outcome, files[file]? = some stanzas ∧ outcome.Reports (some reported) ∧
      FileRun m store file identities stanzas (events.filter fun event => event.1.file = file) outcome := by
  have hlt : file < files.length := by
    by_contra hge
    rw [h.keeps rfl (Or.inr (by omega))] at hreported
    cases hreported
  have hfile : files[file]? = some files[file] := List.getElem?_eq_getElem hlt
  have haccounted := h.accounted (fun _ _ => rfl) hfile
  rw [Nat.zero_add] at haccounted
  rcases haccounted with hown | hleft
  · obtain ⟨outcome, hown, hresult⟩ := hown
    exact ⟨_, outcome, hfile, hreported ▸ hresult results rfl, hown⟩
  · rw [(hleft.2 results rfl).1] at hreported
    cases hreported

theorem Missed.of_filter {file : ℕ} {stanzas : List TaggedStanza}
    (h : Missed identities file stanzas events) :
    Missed identities file stanzas (events.filter fun event => event.1.file = file) := by
  rcases h with hmiss | hnone
  · exact Or.inl hmiss
  · obtain ⟨root, state, chosen, candidates, hmem, hselect⟩ := hnone
    refine Or.inr ⟨root, state, chosen, candidates, List.mem_filter.mpr ⟨hmem, ?_⟩, hselect⟩
    exact decide_eq_true rfl

/-- A file has no result where it is a plain non-match or comes after a cancelled one. -/
theorem CallRun.absent_iff {results : Results} {file : ℕ} {stanzas : List TaggedStanza}
    (h : CallRun m store identities 0 files (fun _ => none) events (.ok results))
    (hfile : files[file]? = some stanzas) :
    results file = none ↔
      Missed identities file stanzas events ∨ ∃ earlier < file, Cancelled earlier events := by
  have haccounted := h.accounted (fun _ _ => rfl) hfile
  rw [Nat.zero_add] at haccounted
  constructor
  · intro hnone
    rcases haccounted with hown | hleft
    · obtain ⟨outcome, hown, hresult⟩ := hown
      have hreports := hresult results rfl
      rw [hnone] at hreports
      have habsent : outcome = .absent := by
        cases outcome <;> first | rfl | cases hreports
      rcases hown.absent_iff.mp habsent with hmiss | hselected
      · exact Or.inl (Or.inl hmiss)
      · exact Or.inl (Or.inr (hselected.mono (List.filter_subset_self _)))
    · exact Or.inr (hleft.2 results rfl).2
  · intro hreason
    rcases hreason with hmissed | hcancelled
    · rcases haccounted with hown | hleft
      · obtain ⟨outcome, hown, hresult⟩ := hown
        have hreports := hresult results rfl
        rw [hown.absent_iff.mpr hmissed.of_filter] at hreports
        exact hreports
      · exact (hleft.2 results rfl).1
    · obtain ⟨earlier, hlt, hcancelled⟩ := hcancelled
      exact h.after_cancelled rfl hcancelled hlt

theorem CallRun.oneExchange (h : CallRun m store identities 0 files (fun _ => none) events result) :
    OneExchange m store identities files events result where
  once := h.once
  checked event hevent := by
    obtain ⟨stanzas, outcome, hfile, hrun⟩ := h.of_event hevent
    have hmem : event ∈ events.filter fun other => other.1.file = event.1.file :=
      List.mem_filter.mpr ⟨hevent, decide_eq_true rfl⟩
    obtain ⟨chosen, candidates, hchecked⟩ := hrun.checked (List.ne_nil_of_mem hmem)
    obtain ⟨hwell, hambiguous, -⟩ := publicChecks_passed hchecked
    exact ⟨stanzas, chosen, candidates, hfile, hwell, hambiguous, hchecked⟩
  exchanged before event after hevents hexchange := by
    have hmem : event ∈ events := by
      rw [hevents]
      exact List.mem_append_right _ List.mem_cons_self
    obtain ⟨stanzas, outcome, hfile, hrun⟩ := h.of_event hmem
    have hown : events.filter (fun other => other.1.file = event.1.file) =
        before.filter (fun other => other.1.file = event.1.file) ++ event ::
          after.filter fun other => other.1.file = event.1.file := by
      rw [hevents, List.filter_append, List.filter_cons, if_pos (decide_eq_true rfl)]
    obtain ⟨prepared, selected, session, _, answer, hevent, hselected, hbuilt, -⟩ :=
      hrun.exchange hown hexchange
    exact ⟨stanzas, prepared, selected, session, answer, hfile, hevent,
      hselected.mono (List.filter_subset_self _), hbuilt⟩
  received results hresult file key hkey := by
    subst hresult
    obtain ⟨stanzas, outcome, hfile, hreports, hrun⟩ := h.of_result hkey
    have houtcome : outcome = .fileKey key := by
      cases outcome <;> cases hreports
      rfl
    subst houtcome
    exact ⟨stanzas, hfile, hrun.received.mono (List.filter_subset_self _)⟩
  cancelled before after file prepared request display hevents := h.cancelled_last hevents
  absent results hresult file stanzas hfile := by
    subst hresult
    exact h.absent_iff hfile
  errors results hresult file errors herrors := by
    subst hresult
    obtain ⟨stanzas, outcome, hfile, hreports, hrun⟩ := h.of_result herrors
    apply hrun.errors
    cases outcome <;> cases hreports
    · exact Or.inl rfl
    · exact Or.inr rfl
  aborted failure hresult := h.aborted_of_error hresult

end Whole

end Calls

end AgePluginPhone.Desktop
