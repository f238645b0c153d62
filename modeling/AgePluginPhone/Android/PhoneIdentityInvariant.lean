import AgePluginPhone.Android.PhoneIdentityKeyStore

/-!
# Android identity invariant

What every call of the identity store keeps true whatever step of it fails or is its last: the
keys belong to the identity the state file names, and a committed state has both of its keys.
The error handler of `provision` keeps it only where `RollbackSafe` holds.
-/

namespace AgePluginPhone.Android.PhoneIdentityKeyStore

open Library StorageM

variable (C : RecipientCodec)

def World.owner (w : World) : Option Id := w.state.map StoredState.identityId

/-- Both keys exist, are as they were generated, and are those of the metadata. -/
structure Matches (w : World) (metadata : PhoneIdentityPublic) : Prop where
  identity : ∃ key, w.keys.lookup (.identity, metadata.identityId) = some key ∧
    key.acceptable = true ∧ key.publicKey = metadata.identityPublicKey
  signing : ∃ key, w.keys.lookup (.signing, metadata.identityId) = some key ∧
    key.acceptable = true ∧ key.publicKey = metadata.signingPublicKey
  valid : validatePublic C metadata = .ok ()

structure Invariant (w : World) : Prop where
  owned : OwnedBy w.owner w.keys
  committed : ∀ metadata, w.state = some (.committed metadata) → Matches C w metadata
  deleting : ∀ metadata, w.state = some (.deleting metadata) → validatePublic C metadata = .ok ()

/-- The state file is the preparing one of the identity, and every key belongs to it. -/
structure Preparing (identityId : Id) (w : World) : Prop where
  state : w.state = some (.preparing identityId)
  owned : OwnedBy (some identityId) w.keys

/-- No state file and no key. -/
structure Vacant (w : World) : Prop where
  state : w.state = none
  owned : OwnedBy none w.keys

variable {C}

section Invariants

theorem Preparing.invariant {identityId : Id} {w : World} (h : Preparing identityId w) :
    Invariant C w where
  owned := by rw [World.owner, h.state]; exact h.owned
  committed metadata hstate := by simp [h.state] at hstate
  deleting metadata hstate := by simp [h.state] at hstate

theorem Vacant.invariant {w : World} (h : Vacant w) : Invariant C w where
  owned := by rw [World.owner, h.state]; exact h.owned
  committed metadata hstate := by simp [h.state] at hstate
  deleting metadata hstate := by simp [h.state] at hstate

theorem Invariant.of_deleting {metadata : PhoneIdentityPublic} {w : World}
    (hstate : w.state = some (.deleting metadata)) (hvalid : validatePublic C metadata = .ok ())
    (howned : OwnedBy (some metadata.identityId) w.keys) : Invariant C w where
  owned := by rw [World.owner, hstate]; exact howned
  committed found hfound := by simp [hstate] at hfound
  deleting found hfound := by
    rw [hstate] at hfound
    obtain rfl : metadata = found := by simpa using hfound
    exact hvalid

theorem Invariant.of_committed {metadata : PhoneIdentityPublic} {w : World}
    (hstate : w.state = some (.committed metadata)) (hmatches : Matches C w metadata)
    (howned : OwnedBy (some metadata.identityId) w.keys) : Invariant C w where
  owned := by rw [World.owner, hstate]; exact howned
  committed found hfound := by
    rw [hstate] at hfound
    obtain rfl : metadata = found := by simpa using hfound
    exact hmatches
  deleting found hfound := by simp [hstate] at hfound

end Invariants

section Specifications

variable {P : World → Prop}

theorem settle_spec (reason : Category) : Triple P (settle reason) (fun _ => P) fun _ => P :=
  Triple.effect (fun _ _ hs h => Option.some.inj h ▸ ⟨hs, fun _ => hs⟩) fun _ hs _ => hs

theorem readState_spec : Triple P (readState C)
    (fun state w => P w ∧ state = w.state ∧ validateState C w.state = .ok ()) fun _ => P := by
  refine Triple.bind (settle_spec _) fun _ => Triple.load_bind fun w => ?_
  refine Triple.check_bind (fun _ hvalid => Triple.pure' ?_) fun _ _ _ hs => hs.1
  rintro _ ⟨hs, rfl⟩
  exact ⟨hs, rfl, hvalid⟩

theorem containsAlias_spec (role : Role) (identityId : Id) : Triple P (containsAlias role identityId)
    (fun found w => P w ∧ found = (w.keys.lookup (role, identityId)).isSome) fun _ => P := by
  refine Triple.bind (settle_spec _) fun _ => Triple.load_bind fun w => Triple.pure' ?_
  rintro _ ⟨hs, rfl⟩
  exact ⟨hs, rfl⟩

theorem getKey_spec (role : Role) (identityId : Id) : Triple P (getKey role identityId)
    (fun key w => P w ∧ w.keys.lookup (role, identityId) = some key) fun _ => P := by
  refine Triple.bind (settle_spec _) fun _ => Triple.load_bind fun w => ?_
  refine Triple.check (fun key s hkey hs => ?_) fun _ _ _ hs => hs.1
  obtain ⟨hs, rfl⟩ := hs
  exact ⟨hs, okOr_eq_ok.mp hkey⟩

theorem publicMetadata_spec (identityId : Id) : Triple P (publicMetadata C identityId)
    (fun metadata w => P w ∧ ∃ identity signing,
      w.keys.lookup (.identity, identityId) = some identity ∧
      w.keys.lookup (.signing, identityId) = some signing ∧
      metadata = ⟨identityId, C.encodeRecipient identity.publicKey, identity.publicKey,
        signing.publicKey⟩) fun _ => P := by
  refine Triple.bind (getKey_spec _ _) fun identity => ?_
  refine Triple.bind ((getKey_spec _ _).weaken (fun _ h => h) (fun _ _ h => h) fun _ _ h => h.1)
    fun signing => ?_
  refine Triple.check_bind (fun _ _ => Triple.pure' ?_) fun _ _ _ h => h.1.1
  exact fun w h => ⟨h.1.1, identity, signing, h.1.2, h.2, rfl⟩

theorem inspect_spec (identityId : Id) : Triple P (inspect identityId)
    (fun _ w => P w ∧ (∃ key, w.keys.lookup (.identity, identityId) = some key ∧
      key.acceptable = true) ∧ ∃ key, w.keys.lookup (.signing, identityId) = some key ∧
      key.acceptable = true) fun _ => P := by
  refine Triple.bind (getKey_spec _ _) fun identity => ?_
  refine Triple.bind ((getKey_spec _ _).weaken (fun _ h => h) (fun _ _ h => h) fun _ _ h => h.1)
    fun signing => ?_
  refine Triple.check (fun _ w hok h => ?_) fun _ _ _ h => h.1.1
  obtain ⟨hidentity, hsigning⟩ := ensure_eq_ok.mp hok
  exact ⟨h.1.1, ⟨identity, h.1.2, hidentity⟩, signing, h.2, hsigning⟩

/-- The state file is replaced or left as it was. -/
theorem commit_spec {next : StoredState} {Q S : World → Prop} (hstay : ∀ w, P w → S w)
    (hstep : ∀ w, P w → Q { w with state := some next }) (hdone : ∀ w, Q w → S w) :
    Triple P (commit next) (fun _ => Q) fun _ => S := by
  refine Triple.bind ((settle_spec _).weaken (fun _ h => h) (fun _ _ h => h) fun _ => hstay) fun _ => ?_
  refine Triple.seq (fun _ => Q) (Triple.effect (fun w w' hw h => ?_)
    fun w hw _ => hstay w hw) fun _ => (settle_spec _).weaken (fun _ h => h) (fun _ _ h => h) fun _ => hdone
  obtain rfl := Option.some.inj h
  exact ⟨hstep w hw, fun _ => hdone _ (hstep w hw)⟩

theorem deleteState_spec {Q S : World → Prop} (hstay : ∀ w, P w → S w)
    (hstep : ∀ w, P w → Q { w with state := none }) (hdone : ∀ w, Q w → S w) :
    Triple P deleteState (fun _ => Q) fun _ => S := by
  refine Triple.seq (fun _ => Q) (Triple.effect (fun w w' hw h => ?_)
    fun w hw _ => hstay w hw) fun _ => (settle_spec _).weaken (fun _ h => h) (fun _ _ h => h) fun _ => hdone
  obtain rfl := Option.some.inj h
  exact ⟨hstep w hw, fun _ => hdone _ (hstep w hw)⟩

/-- The given state file, with keys of the one identity, and none under the roles already gone. -/
structure Held (state : Option StoredState) (identityId : Id) (gone : Role → Prop) (w : World) :
    Prop where
  state : w.state = state
  owned : OwnedBy (some identityId) w.keys
  gone : ∀ role, gone role → w.keys.lookup (role, identityId) = none

theorem cleanupAlias_spec {state : Option StoredState} {identityId : Id} {gone : Role → Prop}
    (role : Role) : Triple (Held state identityId gone) (cleanupAlias identityId role)
      (fun _ => Held state identityId fun r => gone r ∨ r = role)
      fun _ => Held state identityId gone := by
  refine Triple.bind (containsAlias_spec role identityId) fun found => ?_
  by_cases hfound : found = true
  · rw [if_pos hfound]
    refine Triple.effect (fun w w' hw h => ?_) fun w hw _ => hw.1
    obtain rfl := Option.some.inj h
    have howned := hw.1.owned.erase (role, identityId)
    have hgone : ∀ r, gone r ∨ r = role →
        (w.keys.erase (role, identityId)).lookup (r, identityId) = none := by
      intro r hr
      by_cases hrole : r = role
      · rw [hrole, AList.lookup_erase]
      · rw [AList.lookup_erase_ne (by simpa using hrole)]
        exact hw.1.gone r (hr.resolve_right hrole)
    exact ⟨⟨hw.1.state, howned, hgone⟩, fun _ => ⟨hw.1.state, howned, fun r hr => hgone r (Or.inl hr)⟩⟩
  · rw [if_neg hfound]
    refine Triple.pure' fun w hw => ⟨hw.1.state, hw.1.owned, fun r hr => ?_⟩
    rcases hr with hr | rfl
    · exact hw.1.gone r hr
    · have hnone := hw.2 ▸ hfound
      simpa using hnone

theorem cleanupAliases_spec {state : Option StoredState} {identityId : Id} :
    Triple (Held state identityId fun _ => False) (cleanupAliases identityId)
      (fun _ => Held state identityId fun _ => True)
      fun _ => Held state identityId fun _ => False := by
  refine Triple.bind (cleanupAlias_spec .identity) fun _ => ?_
  refine (cleanupAlias_spec .signing).weaken (fun _ h => h) (fun _ w h => ?_) fun _ w h => ?_
  · exact ⟨h.state, h.owned, fun role _ => h.gone role (by cases role <;> simp)⟩
  · exact ⟨h.state, h.owned, fun _ hrole => hrole.elim⟩

theorem Held.vacant {state : Option StoredState} {identityId : Id} {w : World}
    (h : Held state identityId (fun _ => True) w) : Vacant { w with state := none } :=
  ⟨rfl, h.owned.of_erased fun role => h.gone role trivial⟩

theorem Held.preparing {identityId : Id} {gone : Role → Prop} {w : World}
    (h : Held (some (.preparing identityId)) identityId gone w) : Preparing identityId w :=
  ⟨h.state, h.owned⟩

theorem clearPreparing_spec :
    Triple (Invariant C) (clearPreparing C) (fun _ => Vacant) fun _ => Invariant C := by
  refine Triple.bind readState_spec fun state => ?_
  match state with
  | none =>
      refine Triple.pure' fun w ⟨hw, hstate, _⟩ => ⟨hstate.symm, ?_⟩
      simpa [World.owner, ← hstate] using hw.owned
  | some (.committed _) => exact Triple.raise fun w h => h.1
  | some (.deleting _) => exact Triple.raise fun w h => h.1
  | some (.preparing existing) =>
      refine Triple.seq (fun _ => Held (some (.preparing existing)) existing fun _ => True)
        (cleanupAliases_spec.weaken ?_ (fun _ _ h => h) fun _ w h => h.preparing.invariant) fun _ => ?_
      · rintro w ⟨hw, hstate, -⟩
        refine ⟨hstate.symm, ?_, fun _ hrole => hrole.elim⟩
        simpa [World.owner, ← hstate, StoredState.identityId] using hw.owned
      · exact deleteState_spec (fun w h => h.preparing.invariant) (fun w h => h.vacant)
          fun w h => h.invariant

theorem prepare_spec (identityId : Id) :
    Triple (Invariant C) (prepare C identityId) (fun _ => Preparing identityId)
      fun _ => Invariant C := by
  refine Triple.bind (settle_spec _) fun _ => Triple.bind clearPreparing_spec fun _ => ?_
  refine Triple.bind ((containsAlias_spec _ _).weaken (fun _ h => h) (fun _ _ h => h)
    fun _ w h => h.invariant) fun _ => ?_
  refine Triple.bind ((containsAlias_spec _ _).weaken (fun _ h => h) (fun _ _ h => h)
    fun _ w h => h.1.invariant) fun _ => ?_
  refine Triple.check_bind (fun _ _ => ?_) fun _ _ _ h => h.1.1.invariant
  exact commit_spec (fun w h => h.1.1.invariant) (fun w h => ⟨rfl, h.1.1.owned.of_none⟩)
    fun w h => h.invariant

/-- What a failed or stopped `generate` leaves: a state of the identity it was called for. -/
structure Attempted (C : RecipientCodec) (identityId : Id) (w : World) : Prop where
  invariant : Invariant C w
  owner : w.owner = some identityId

theorem Preparing.attempted {identityId : Id} {w : World} (h : Preparing identityId w) :
    Attempted C identityId w :=
  ⟨h.invariant, by rw [World.owner, h.state]; rfl⟩

theorem generateKey_spec (role : Role) (identityId : Id) (key : KeyEntry) :
    Triple (Preparing identityId) (generateKey role identityId key)
      (fun _ => Preparing identityId) fun _ => Attempted C identityId := by
  refine Triple.effect (fun w w' hw h => ?_) fun w hw _ => hw.attempted
  obtain rfl := Option.some.inj h
  have hnext : Preparing identityId { w with keys := w.keys.insert (role, identityId) key } :=
    ⟨hw.state, hw.owned.insert role key⟩
  exact ⟨hnext, fun _ => hnext.attempted⟩

theorem generate_spec (identityId : Id) (identityKey signingKey : KeyEntry) :
    Triple (Preparing identityId) (generate C identityId identityKey signingKey)
      (fun _ => Attempted C identityId) fun _ => Attempted C identityId := by
  refine Triple.bind (generateKey_spec _ _ _) fun _ => Triple.bind (generateKey_spec _ _ _) fun _ => ?_
  refine Triple.bind ((publicMetadata_spec _).weaken (fun _ h => h) (fun _ _ h => h)
    fun _ w h => h.attempted) fun metadata => ?_
  refine Triple.bind ((inspect_spec _).weaken (fun _ h => h) (fun _ _ h => h)
    fun _ w h => h.1.attempted) fun _ => ?_
  refine Triple.seq (fun _ => Attempted C identityId) ?_ fun _ => Triple.pure' fun _ h => h
  refine Triple.check_bind (fun _ hvalid => ?_) fun _ _ _ h => h.1.1.attempted
  refine commit_spec (fun w h => h.1.1.attempted) (fun w h => ?_) fun w h => h
  obtain ⟨⟨hw, identity, signing, hidentity, hsigning, rfl⟩, ⟨identity', hidentity', hacceptable⟩,
    signing', hsigning', hacceptable'⟩ := h
  obtain rfl : identity = identity' := Option.some.inj (hidentity.symm.trans hidentity')
  obtain rfl : signing = signing' := Option.some.inj (hsigning.symm.trans hsigning')
  exact ⟨.of_committed rfl ⟨⟨identity, hidentity, hacceptable, rfl⟩,
    ⟨signing, hsigning, hacceptable', rfl⟩, hvalid⟩ hw.owned, rfl⟩

/-- Opening changes nothing, and succeeds only on a committed state whose keys match. -/
theorem openIdentity_spec {P : World → Prop} : Triple P (openIdentity C)
    (fun metadata w => P w ∧ w.state = some (.committed metadata) ∧ Matches C w metadata)
    fun _ => P := by
  refine Triple.bind (settle_spec _) fun _ => Triple.bind readState_spec fun state => ?_
  match state with
  | none | some (.preparing _) | some (.deleting _) => exact Triple.raise fun w h => h.1
  | some (.committed metadata) =>
      refine Triple.bind ((publicMetadata_spec _).weaken (fun _ h => h) (fun _ _ h => h)
        fun _ w h => h.1) fun live => Triple.check_bind (fun _ hlive => ?_) fun _ _ _ h => h.1.1
      obtain rfl : metadata = live := ensure_eq_ok.mp hlive
      refine Triple.bind ((inspect_spec _).weaken (fun _ h => h) (fun _ _ h => h)
        fun _ w h => h.1.1) fun _ => Triple.pure' fun w h => ?_
      obtain ⟨⟨⟨hw, hstate, hvalid⟩, identity, signing, hidentity, hsigning, heq⟩,
        ⟨identity', hidentity', hacceptable⟩, signing', hsigning', hacceptable'⟩ := h
      obtain rfl : identity = identity' := Option.some.inj (hidentity.symm.trans hidentity')
      obtain rfl : signing = signing' := Option.some.inj (hsigning.symm.trans hsigning')
      rw [← hstate] at hvalid
      refine ⟨hw, hstate.symm, ⟨identity, hidentity, hacceptable, ?_⟩,
        ⟨signing, hsigning, hacceptable', ?_⟩, hvalid⟩
      · rw [heq]
      · rw [heq]

/-- A deletion in progress. -/
structure Deleting (C : RecipientCodec) (metadata : PhoneIdentityPublic) (w : World) : Prop where
  state : w.state = some (.deleting metadata)
  valid : validatePublic C metadata = .ok ()
  owned : OwnedBy (some metadata.identityId) w.keys

theorem Deleting.invariant {metadata : PhoneIdentityPublic} {w : World}
    (h : Deleting C metadata w) : Invariant C w :=
  .of_deleting h.state h.valid h.owned

theorem beginDeletion_spec :
    Triple (Invariant C) (beginDeletion C) (Deleting C) fun _ => Invariant C := by
  refine Triple.bind (settle_spec _) fun _ => Triple.bind readState_spec fun state => ?_
  match state with
  | none | some (.preparing _) => exact Triple.raise fun w h => h.1
  | some (.deleting metadata) =>
      refine Triple.pure' fun w ⟨hw, hstate, hvalid⟩ => ⟨hstate.symm, ?_, ?_⟩
      · rwa [← hstate] at hvalid
      · simpa [World.owner, ← hstate, StoredState.identityId] using hw.owned
  | some (.committed metadata) =>
      refine Triple.seq (fun _ => Deleting C metadata) ?_ fun _ => Triple.pure' fun _ h => h
      refine Triple.check_bind (fun _ hvalid => ?_) fun _ _ _ h => h.1
      refine commit_spec (fun w h => h.1) (fun w h => ⟨rfl, hvalid, ?_⟩) fun w h => h.invariant
      simpa [World.owner, ← h.2.1, StoredState.identityId] using h.1.owned

theorem finishDeletion_spec (metadata : PhoneIdentityPublic) :
    Triple (Deleting C metadata) (finishDeletion metadata.identityId) (fun _ => Vacant)
      fun _ => Invariant C := by
  refine Triple.bind ((settle_spec _).weaken (fun _ h => h) (fun _ _ h => h)
    fun _ w h => h.invariant) fun _ => ?_
  have hkeep : ∀ {gone} w, validatePublic C metadata = .ok () ∧
      Held (some (.deleting metadata)) metadata.identityId gone w → Invariant C w :=
    fun w h => .of_deleting h.2.state h.1 h.2.owned
  by_cases hvalid : validatePublic C metadata = .ok ()
  · refine Triple.seq (fun _ => Held (some (.deleting metadata)) metadata.identityId
      fun _ => True) (cleanupAliases_spec.weaken (fun w h => ⟨h.state, h.owned, fun _ hr => hr.elim⟩)
      (fun _ _ h => h) fun _ w h => hkeep w ⟨hvalid, h⟩) fun _ => ?_
    refine Triple.bind ((containsAlias_spec _ _).weaken (fun _ h => h) (fun _ _ h => h)
      fun _ w h => hkeep w ⟨hvalid, h⟩) fun _ => ?_
    refine Triple.bind ((containsAlias_spec _ _).weaken (fun _ h => h) (fun _ _ h => h)
      fun _ w h => hkeep w ⟨hvalid, h.1⟩) fun _ => ?_
    refine Triple.check_bind (fun _ _ => ?_) fun _ _ _ h => hkeep _ ⟨hvalid, h.1.1⟩
    exact deleteState_spec (fun w h => hkeep w ⟨hvalid, h.1.1⟩) (fun w h => h.1.1.vacant)
      fun w h => h.invariant
  · exact fun w _ hw => absurd hw.valid hvalid

theorem deleteIdentity_spec :
    Triple (Invariant C) (deleteIdentity C) (fun _ => Vacant) fun _ => Invariant C := by
  refine Triple.bind beginDeletion_spec fun metadata => ?_
  refine Triple.recover (fun _ => Invariant C) ((finishDeletion_spec metadata).weaken (fun _ h => h)
    (fun _ _ h => h) fun stop w h => by cases stop <;> exact h) fun reason => ?_
  cases reason <;> exact Triple.raise fun _ h => h

theorem identityStatus_spec {P : World → Prop} :
    Triple P (identityStatus C) (fun _ => P) fun _ => P := by
  refine Triple.recover (fun _ => P) (Triple.bind ((openIdentity_spec (P := P)).weaken
    (fun _ h => h) (fun _ _ h => h) fun stop w h => by cases stop <;> exact h) fun _ =>
    Triple.bind ((settle_spec _).weaken (fun _ h => h) (fun _ _ h => h.1)
      fun stop w h => by cases stop <;> exact h.1) fun _ => Triple.pure' fun _ h => h) fun reason => ?_
  cases reason <;> first | exact Triple.pure' fun _ h => h | exact Triple.raise fun _ h => h

theorem deleteCommand_spec (confirmed : Bool) :
    Triple (Invariant C) (deleteCommand C confirmed) (fun _ => Invariant C)
      fun _ => Invariant C := by
  refine Triple.bind identityStatus_spec fun status => ?_
  split_ifs
  · refine Triple.recover (fun _ => Invariant C) (Triple.bind (deleteIdentity_spec.weaken
      (fun _ h => h) (fun _ _ h => h.invariant) fun stop w h => by cases stop <;> exact h) fun _ =>
      Triple.pure' fun _ h => h) fun _ => Triple.pure' fun _ h => h
  · exact Triple.pure' fun _ h => h
  · exact Triple.pure' fun _ h => h

end Specifications

section Rollback

def World.isCommitted (w : World) : Bool :=
  match w.state with
  | some (.committed _) => true
  | _ => false

/-- Where the error handler of `provision` starts: its removal of the keys reports no failure, and
no step of it fails or is the last one when the committed state is already in place. -/
def RollbackSafe (identityId : Id) (w : World) (faults : List Fault) : Prop :=
  OnFailure (cleanupAliases identityId w faults) (fun _ _ => False) ∧
    (w.isCommitted = true → Quiet faults)

instance (identityId : Id) (w : World) (faults : List Fault) :
    Decidable (RollbackSafe identityId w faults) :=
  inferInstanceAs (Decidable (_ ∧ _))

def GenerateSafe (C : RecipientCodec) (identityId : Id) (identityKey signingKey : KeyEntry)
    (w : World) (faults : List Fault) : Prop :=
  OnFailure (generate C identityId identityKey signingKey w faults) (RollbackSafe identityId)

/-- The error handler of this call, if it is entered, starts where it is safe. -/
def ProvisionSafe (C : RecipientCodec) (identityId : Id) (identityKey signingKey : KeyEntry)
    (w : World) (faults : List Fault) : Prop :=
  OnReturn (prepare C identityId w faults) (GenerateSafe C identityId identityKey signingKey)

instance (identityId : Id) (identityKey signingKey : KeyEntry) (w : World) (faults : List Fault) :
    Decidable (GenerateSafe C identityId identityKey signingKey w faults) :=
  inferInstanceAs (Decidable (OnFailure (generate C identityId identityKey signingKey w faults)
    (RollbackSafe identityId)))

instance (identityId : Id) (identityKey signingKey : KeyEntry) (w : World) (faults : List Fault) :
    Decidable (ProvisionSafe C identityId identityKey signingKey w faults) :=
  inferInstanceAs (Decidable (OnReturn (prepare C identityId w faults)
    (GenerateSafe C identityId identityKey signingKey)))

theorem cleanupAlias_quiet (role : Role) (identityId : Id) (w : World) {faults : List Fault}
    (hquiet : Quiet faults) : ∃ w' rest, cleanupAlias identityId role w faults = ⟨.ok (), w', rest⟩ ∧
      Quiet rest := by
  have hprobe : containsAlias role identityId w faults =
      ⟨.ok (w.keys.lookup (role, identityId)).isSome, w, faults.tail⟩ :=
    bind_ok (effect_quiet _ rfl hquiet)
  rw [cleanupAlias, bind_ok hprobe]
  by_cases hfound : (w.keys.lookup (role, identityId)).isSome = true
  · rw [if_pos hfound]
    exact ⟨_, _, effect_quiet _ rfl hquiet.tail, hquiet.tail.tail⟩
  · rw [if_neg hfound]
    exact ⟨_, _, rfl, hquiet.tail⟩

theorem cleanupAliases_quiet (identityId : Id) (w : World) {faults : List Fault}
    (hquiet : Quiet faults) : ∃ w' rest, cleanupAliases identityId w faults = ⟨.ok (), w', rest⟩ ∧
      Quiet rest := by
  obtain ⟨w₁, rest₁, hidentity, hrest₁⟩ := cleanupAlias_quiet .identity identityId w hquiet
  obtain ⟨w₂, rest₂, hsigning, hrest₂⟩ := cleanupAlias_quiet .signing identityId w₁ hrest₁
  exact ⟨w₂, rest₂, (bind_ok hidentity).trans hsigning, hrest₂⟩

theorem deleteState_quiet (w : World) {faults : List Fault} (hquiet : Quiet faults) :
    deleteState w faults = ⟨.ok (), { w with state := none }, faults.tail.tail⟩ := by
  have hremove : removeState w faults = ⟨.ok (), { w with state := none }, faults.tail⟩ :=
    effect_quiet _ rfl hquiet
  rw [deleteState, bind_ok hremove]
  exact effect_quiet _ rfl hquiet.tail

private theorem Held.invariant {state : Option StoredState} {identityId : Id} {gone : Role → Prop}
    {w w' : World} (h : Held state identityId gone w') (hw : Attempted C identityId w)
    (hstate : w.state = state) (hopen : w.isCommitted = false) : Invariant C w' := by
  have howner := hw.owner
  rw [World.owner, hstate] at howner
  rw [World.isCommitted, hstate] at hopen
  cases state with
  | none => simp at howner
  | some state =>
      obtain rfl : state.identityId = identityId := by simpa using howner
      cases state with
      | preparing _ => exact Preparing.invariant ⟨h.state, h.owned⟩
      | committed _ => simp at hopen
      | deleting metadata => exact .of_deleting h.state (hw.invariant.deleting _ hstate) h.owned

/-- Once the keys are gone the handler may fail or stop, unless the committed state is in place. -/
private theorem removal_ends {identityId : Id} {w w₁ : World} {rest : List Fault}
    (hw : Attempted C identityId w) (hheld : Held w.state identityId (fun _ => True) w₁)
    (hquiet : w.isCommitted = true → Quiet rest) :
    (runCatching deleteState w₁ rest).Ends (fun _ => Invariant C) fun _ => Invariant C := by
  cases hcommitted : w.isCommitted with
  | true =>
      rw [runCatching, recover, deleteState_quiet w₁ (hquiet hcommitted)]
      exact hheld.vacant.invariant
  | false =>
      have hdelete : Triple (Held w.state identityId fun _ => True) deleteState
          (fun _ => Vacant) fun _ => Invariant C :=
        deleteState_spec (fun w' h => Held.invariant h hw rfl hcommitted) (fun _ h => h.vacant)
          fun _ h => h.invariant
      refine ends_recover (fun _ => Invariant C) ((hdelete w₁ rest hheld).weaken
        (fun _ _ h => h.invariant) fun stop _ h => by cases stop <;> exact h) ?_
      exact fun _ _ _ _ h => h

/-- The error handler of `provision`, where it is safe. -/
theorem rollback_ends {identityId : Id} {w : World} {faults : List Fault}
    (hw : Attempted C identityId w) (hsafe : RollbackSafe identityId w faults) (reason : Category) :
    (rollback identityId reason w faults).Ends (fun _ => Invariant C) fun _ => Invariant C := by
  have howned : OwnedBy (some identityId) w.keys := hw.owner ▸ hw.invariant.owned
  have hcleanup : (cleanupAliases identityId w faults).Ends
      (fun _ => Held w.state identityId fun _ => True)
      (fun _ => Held w.state identityId fun _ => False) := cleanupAliases_spec w faults ⟨rfl, howned, fun _ hrole => hrole.elim⟩
  have hquiet := fun hcommitted => cleanupAliases_quiet identityId w (hsafe.2 hcommitted)
  refine ends_bind (fun _ => Held w.state identityId fun _ => True) ?_ ?_
  · refine ends_recover (fun _ _ => False) ?_ fun _ _ _ _ h => h.elim
    have hfailure := hsafe.1
    cases hout : cleanupAliases identityId w faults with
    | mk value w₁ rest =>
    rw [hout] at hcleanup hfailure hquiet
    match value with
    | .ok () => exact hcleanup
    | .error (.failure _) => exact hfailure
    | .error .crash =>
        cases hcommitted : w.isCommitted with
        | false => exact Held.invariant hcleanup hw rfl hcommitted
        | true =>
            obtain ⟨_, _, hrun, -⟩ := hquiet hcommitted
            simp at hrun
  · intro _ w₁ rest hrun hheld
    refine ends_bind _ (removal_ends hw hheld fun hcommitted => ?_) fun _ _ _ _ h => h
    obtain ⟨w', rest', hclean, hrest⟩ := hquiet hcommitted
    rw [runCatching, recover, hclean] at hrun
    obtain rfl : rest' = rest := congrArg Outcome.faults hrun
    exact hrest

theorem provision_invariant {identityId : Id} {identityKey signingKey : KeyEntry} {w : World}
    {faults : List Fault} (hw : Invariant C w)
    (hsafe : ProvisionSafe C identityId identityKey signingKey w faults) :
    Invariant C (provision C identityId identityKey signingKey w faults).store := by
  refine Outcome.Ends.store (ends_bind _ (prepare_spec identityId w faults hw) ?_)
  intro _ w₁ rest hprepare hpreparing
  refine ends_recover (fun _ => Attempted C identityId) ?_ ?_
  · exact (generate_spec identityId identityKey signingKey w₁ rest hpreparing).weaken
      (fun _ _ h => h.invariant) fun stop _ h => by cases stop; exacts [h, h.invariant]
  · intro reason w₂ rest₂ hgenerate hattempted
    have hrollback := (hsafe.of_ok hprepare).of_failure hgenerate
    exact rollback_ends hattempted hrollback reason

end Rollback

end AgePluginPhone.Android.PhoneIdentityKeyStore
