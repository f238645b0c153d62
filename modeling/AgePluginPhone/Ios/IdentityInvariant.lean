import AgePluginPhone.Ios.IdentityKeyStore

/-!
# iOS identity invariant

What every call of the identity store keeps true whatever step of it fails or is its last: the
keychain items belong to the identity the metadata names, and committed metadata has both of its
keys. `provision` keeps it only where `ProvisionSafe` holds.
-/

namespace AgePluginPhone.Ios.IdentityKeyStore

open Library StorageM

variable {K : CryptoKit}

def World.owner (w : World K) : Option Id := w.metadata.map (·.identityId)

/-- Both keys exist and are those the metadata was committed for. -/
structure Matches (w : World K) (metadata : IdentityPublicMetadata) (identityKey signingKey :
    K.PublicKey) : Prop where
  identity : w.keychain.lookup (.identity, metadata.identityId) = some identityKey
  signing : w.keychain.lookup (.signing, metadata.identityId) = some signingKey
  committed : committedMetadata K metadata.identityId identityKey signingKey = some metadata

structure Invariant (w : World K) : Prop where
  owned : OwnedBy w.owner w.keychain
  committed : ∀ metadata, w.metadata = some metadata → metadata.state = .committed →
    ∃ identityKey signingKey, Matches w metadata identityKey signingKey

/-- The metadata is the preparing one of the identity, and every key belongs to it. -/
structure Preparing (identityId : Id) (w : World K) : Prop where
  metadata : w.metadata = some (preparingMetadata identityId)
  owned : OwnedBy (some identityId) w.keychain

structure Vacant (w : World K) : Prop where
  metadata : w.metadata = none
  owned : OwnedBy none w.keychain

section Invariants

theorem Invariant.of_uncommitted {metadata : IdentityPublicMetadata} {w : World K}
    (hmetadata : w.metadata = some metadata) (hstate : metadata.state ≠ .committed)
    (howned : OwnedBy (some metadata.identityId) w.keychain) : Invariant w where
  owned := by rw [World.owner, hmetadata]; exact howned
  committed found hfound hcommitted := by
    rw [hmetadata] at hfound
    obtain rfl := Option.some.inj hfound
    exact absurd hcommitted hstate

theorem Preparing.invariant {identityId : Id} {w : World K} (h : Preparing identityId w) :
    Invariant w :=
  .of_uncommitted h.metadata (by simp [preparingMetadata]) h.owned

theorem Vacant.invariant {w : World K} (h : Vacant w) : Invariant w where
  owned := by rw [World.owner, h.metadata]; exact h.owned
  committed metadata hmetadata := by simp [h.metadata] at hmetadata

theorem Invariant.owned_of {metadata : IdentityPublicMetadata} {w : World K} (h : Invariant w)
    (hmetadata : w.metadata = some metadata) : OwnedBy (some metadata.identityId) w.keychain := by
  have howned := h.owned
  rwa [World.owner, hmetadata] at howned

end Invariants

section Specifications

variable {P : World K → Prop}

theorem settle_spec : Triple P settle (fun _ => P) fun _ => P :=
  Triple.effect (fun _ _ hs h => Option.some.inj h ▸ ⟨hs, fun _ => hs⟩) fun _ hs _ => hs

theorem readMetadata_spec : Triple P readMetadata
    (fun metadata w => P w ∧ w.metadata = some metadata) fun _ => P := by
  refine Triple.load_bind fun w => Triple.check_bind (fun metadata hmetadata => ?_) fun _ _ _ h => h.1
  refine Triple.bind ((settle_spec (P := fun t => P t ∧ t = w)).weaken (fun _ h => h)
    (fun _ _ h => h) fun _ _ h => h.1) fun _ => Triple.pure' fun t h => ⟨h.1, ?_⟩
  rw [h.2]
  exact okOr_eq_ok.mp hmetadata

theorem readKey_spec (role : Role) (identityId : Id) : Triple P (readKey role identityId)
    (fun key w => P w ∧ w.keychain.lookup (role, identityId) = some key) fun _ => P := by
  refine Triple.bind settle_spec fun _ => Triple.load_bind fun w => ?_
  refine Triple.check (fun key t hkey h => ⟨h.1, ?_⟩) fun _ _ _ h => h.1
  rw [h.2]
  exact okOr_eq_ok.mp hkey

/-- The metadata is replaced or left as it was. -/
theorem writeMetadata_spec {next : IdentityPublicMetadata} {createOnly : Bool}
    {Q S : World K → Prop} (hstay : ∀ w, P w → S w)
    (hstep : ∀ w, P w → Q { w with metadata := some next }) (hdone : ∀ w, Q w → S w) :
    Triple P (writeMetadata next createOnly) (fun _ => Q) fun _ => S := by
  refine Triple.load_bind fun w₀ => Triple.check_bind (fun _ _ => ?_) fun _ _ _ h => hstay _ h.1
  refine Triple.bind ((settle_spec (P := P)).weaken (fun _ h => h.1) (fun _ _ h => h)
    fun _ => hstay) fun _ => ?_
  refine Triple.seq (fun _ => Q) (Triple.effect (fun w w' hw h => ?_)
    fun w hw _ => hstay w hw) fun _ => settle_spec.weaken (fun _ h => h) (fun _ _ h => h)
    fun _ => hdone
  split_ifs at h
  obtain rfl := Option.some.inj h
  exact ⟨hstep w hw, fun _ => hdone _ (hstep w hw)⟩

theorem removeItem_spec {Q S : World K → Prop} (hstay : ∀ w, P w → S w)
    (hstep : ∀ w, P w → Q { w with metadata := none }) (hdone : ∀ w, Q w → S w) :
    Triple P removeItem (fun _ => Q) fun _ => S := by
  refine Triple.effect (fun w w' hw h => ?_) fun w hw _ => hstay w hw
  obtain rfl := Option.some.inj h
  exact ⟨hstep w hw, fun _ => hdone _ (hstep w hw)⟩

/-- The given metadata, with keys of the one identity, and none under the roles already gone. -/
structure Held (metadata : Option IdentityPublicMetadata) (identityId : Id) (gone : Role → Prop)
    (w : World K) : Prop where
  metadata : w.metadata = metadata
  owned : OwnedBy (some identityId) w.keychain
  gone : ∀ role, gone role → w.keychain.lookup (role, identityId) = none

/-- The two removals that `finishDeletion` starts with, and that the others attempt. -/
def deleteKeys (identityId : Id) : Io K Unit := do
  deleteKey .identity identityId
  deleteKey .signing identityId

theorem deleteKey_spec {metadata : Option IdentityPublicMetadata} {identityId : Id}
    {gone : Role → Prop} (role : Role) : Triple (Held (K := K) metadata identityId gone)
      (deleteKey role identityId) (fun _ => Held metadata identityId fun r => gone r ∨ r = role)
      fun _ => Held metadata identityId gone := by
  refine Triple.effect (fun w w' hw h => ?_) fun w hw _ => hw
  obtain rfl := Option.some.inj h
  have howned := hw.owned.erase (role, identityId)
  have hgone : ∀ r, gone r ∨ r = role →
      (w.keychain.erase (role, identityId)).lookup (r, identityId) = none := by
    intro r hr
    by_cases hrole : r = role
    · rw [hrole, AList.lookup_erase]
    · rw [AList.lookup_erase_ne (by simpa using hrole)]
      exact hw.gone r (hr.resolve_right hrole)
  exact ⟨⟨hw.metadata, howned, hgone⟩,
    fun _ => ⟨hw.metadata, howned, fun r hr => hgone r (Or.inl hr)⟩⟩

theorem deleteKeys_spec {metadata : Option IdentityPublicMetadata} {identityId : Id} :
    Triple (Held (K := K) metadata identityId fun _ => False) (deleteKeys identityId)
      (fun _ => Held metadata identityId fun _ => True)
      fun _ => Held metadata identityId fun _ => False := by
  refine Triple.bind (deleteKey_spec .identity) fun _ => ?_
  refine (deleteKey_spec .signing).weaken (fun _ h => h) (fun _ w h => ?_) fun _ w h => ?_
  · exact ⟨h.metadata, h.owned, fun role _ => h.gone role (by cases role <;> simp)⟩
  · exact ⟨h.metadata, h.owned, fun _ hrole => hrole.elim⟩

theorem Held.vacant {metadata : Option IdentityPublicMetadata} {identityId : Id} {w : World K}
    (h : Held metadata identityId (fun _ => True) w) : Vacant { w with metadata := none } :=
  ⟨rfl, h.owned.of_erased fun role => h.gone role trivial⟩

/-- What a failed or stopped `generate` leaves: metadata of the identity it was called for. -/
structure Attempted (identityId : Id) (w : World K) : Prop where
  invariant : Invariant w
  owner : w.owner = some identityId

theorem Preparing.attempted {identityId : Id} {w : World K} (h : Preparing identityId w) :
    Attempted identityId w :=
  ⟨h.invariant, by rw [World.owner, h.metadata]; rfl⟩

theorem storeKey_spec {Q : World K → Prop} (role : Role) (identityId : Id) (key : K.PublicKey)
    (hP : ∀ w, P w → Preparing identityId w)
    (hQ : ∀ w, P w → Q { w with keychain := w.keychain.insert (role, identityId) key })
    (hdone : ∀ w, Q w → Preparing identityId w) :
    Triple P (storeKey role identityId key) (fun _ => Q) fun _ => Attempted identityId := by
  refine Triple.effect (fun w w' hw h => ?_) fun w hw _ => (hP w hw).attempted
  split_ifs at h
  obtain rfl := Option.some.inj h
  exact ⟨hQ w hw, fun _ => (hdone _ (hQ w hw)).attempted⟩

theorem committedMetadata_inv {identityId : Id} {identityKey signingKey : K.PublicKey}
    {metadata : IdentityPublicMetadata}
    (h : committedMetadata K identityId identityKey signingKey = some metadata) :
    metadata.identityId = identityId ∧ metadata.state = .committed := by
  simp only [committedMetadata] at h
  split_ifs at h
  obtain rfl := Option.some.inj h
  exact ⟨rfl, rfl⟩

theorem generate_spec (identityId : Id) (identityKey signingKey : K.PublicKey) :
    Triple (Preparing identityId) (generate identityId identityKey signingKey)
      (fun _ => Attempted identityId) fun _ => Attempted identityId := by
  refine Triple.bind (settle_spec.weaken (fun _ h => h) (fun _ _ h => h) fun _ w h => h.attempted)
    fun _ => ?_
  refine Triple.check_bind (fun committed hcommitted => ?_) fun _ _ _ h => h.attempted
  replace hcommitted := okOr_eq_ok.mp hcommitted
  obtain ⟨hidentity, hstate⟩ := committedMetadata_inv hcommitted
  refine Triple.seq (fun _ w => Preparing identityId w ∧
    w.keychain.lookup (.identity, identityId) = some identityKey)
    (storeKey_spec .identity identityId identityKey (fun _ h => h) (fun w h => ?_) fun _ h => h.1)
    fun _ => ?_
  · exact ⟨⟨h.metadata, h.owned.insert _ _⟩, AList.lookup_insert _⟩
  refine Triple.seq (fun _ w => Preparing identityId w ∧
    w.keychain.lookup (.identity, identityId) = some identityKey ∧
    w.keychain.lookup (.signing, identityId) = some signingKey)
    (storeKey_spec .signing identityId signingKey (fun _ h => h.1) (fun w h => ?_) fun _ h => h.1)
    fun _ => ?_
  · exact ⟨⟨h.1.metadata, h.1.owned.insert _ _⟩,
      (AList.lookup_insert_ne (by simp)).trans h.2, AList.lookup_insert _⟩
  refine Triple.seq (fun _ => Attempted identityId) ?_ fun _ => Triple.pure' fun _ h => h
  refine writeMetadata_spec (fun w h => h.1.attempted) (fun w h => ?_) fun _ h => h
  subst hidentity
  refine ⟨⟨h.1.owned, fun found hfound _ => ?_⟩, rfl⟩
  obtain rfl := Option.some.inj hfound
  exact ⟨identityKey, signingKey, h.2.1, h.2.2, hcommitted⟩

/-- Opening changes nothing, and succeeds only on committed metadata whose keys match. -/
theorem openLocked_spec : Triple P openLocked
    (fun metadata w => P w ∧ w.metadata = some metadata ∧ metadata.state = .committed ∧
      ∃ identityKey signingKey, Matches w metadata identityKey signingKey) fun _ => P := by
  refine Triple.bind readMetadata_spec fun metadata => ?_
  refine Triple.check_bind (fun _ _ => ?_) fun _ _ _ h => h.1
  refine Triple.check_bind (fun _ hguards => ?_) fun _ _ _ h => h.1
  obtain ⟨hversion, hstate, -, -, hdistinct⟩ := ensure_eq_ok.mp hguards
  refine Triple.bind ((readKey_spec _ _).weaken (fun _ h => h) (fun _ _ h => h)
    fun _ _ h => h.1) fun identity => ?_
  refine Triple.bind ((readKey_spec _ _).weaken (fun _ h => h) (fun _ _ h => h)
    fun _ _ h => h.1.1) fun signing => ?_
  refine Triple.check_bind (fun _ hlive => Triple.pure' fun w h => ?_) fun _ _ _ h => h.1.1.1
  obtain ⟨hidentity, hsigning, hrecipient⟩ := ensure_eq_ok.mp hlive
  refine ⟨h.1.1.1, h.1.1.2, hstate, identity, signing, h.1.2, h.2, ?_⟩
  have hroles : compressed K identity ≠ compressed K signing := by
    intro heq
    exact hdistinct (by rw [← hidentity, ← hsigning, heq])
  rw [committedMetadata, if_pos hroles, hidentity, hsigning, hrecipient, ← hversion, ← hstate]

/-- A deletion in progress. -/
structure Deleting (metadata : IdentityPublicMetadata) (w : World K) : Prop where
  current : w.metadata = some metadata
  state : metadata.state = .deleting
  owned : OwnedBy (some metadata.identityId) w.keychain

theorem Deleting.invariant {metadata : IdentityPublicMetadata} {w : World K}
    (h : Deleting metadata w) : Invariant w :=
  .of_uncommitted h.current (by simp [h.state]) h.owned

theorem beginDeletion_spec :
    Triple (Invariant (K := K)) beginDeletion Deleting fun _ => Invariant := by
  refine Triple.bind readMetadata_spec fun current => ?_
  match hstate : current.state with
  | .preparing => exact Triple.raise fun w h => h.1
  | .deleting =>
      exact Triple.pure' fun w h => ⟨h.2, hstate, h.1.owned_of h.2⟩
  | .committed =>
      refine Triple.seq (fun _ => Deleting { current with state := .deleting }) ?_
        fun _ => Triple.pure' fun _ h => h
      refine writeMetadata_spec (fun w h => h.1) (fun w h => ?_) fun w h => h.invariant
      have howned : OwnedBy (some current.identityId) w.keychain := h.1.owned_of h.2
      exact ⟨rfl, rfl, howned⟩

theorem finishDeletion_spec (metadata : IdentityPublicMetadata) :
    Triple (Deleting (K := K) metadata) (finishDeletion metadata) (fun _ => Vacant)
      fun _ => Invariant := by
  intro w faults hw
  have hkeep : ∀ {gone} w, Held (K := K) (some metadata) metadata.identityId gone w → Invariant w :=
    fun w h => .of_uncommitted h.metadata (by simp [hw.state]) h.owned
  have hrun : Triple (Held (K := K) (some metadata) metadata.identityId fun _ => False)
      (finishDeletion metadata) (fun _ => Vacant) fun _ => Invariant := by
    refine Triple.bind ((deleteKey_spec .identity).weaken (fun _ h => h) (fun _ _ h => h)
      fun _ => hkeep) fun _ => Triple.bind ((deleteKey_spec .signing).weaken (fun _ h => h)
      (fun _ _ h => h) fun _ => hkeep) fun _ => Triple.load_bind fun w₀ => ?_
    have hgone : ∀ w, Held (K := K) (some metadata) metadata.identityId
        (fun r => (False ∨ r = .identity) ∨ r = .signing) w →
        Held (K := K) (some metadata) metadata.identityId (fun _ => True) w :=
      fun w h => ⟨h.metadata, h.owned, fun role _ => h.gone role (by cases role <;> simp)⟩
    split_ifs with hnone
    · exact Triple.pure' fun w h => absurd (h.1.metadata.symm.trans (h.2 ▸ hnone)) (by simp)
    · exact Triple.seq (fun _ => Vacant) (removeItem_spec (fun w h => hkeep w h.1)
        (fun w h => (hgone w h.1).vacant) fun w h => h.invariant) fun _ =>
        settle_spec.weaken (fun _ h => h) (fun _ _ h => h) fun _ w h => h.invariant
  exact hrun w faults ⟨hw.current, hw.owned, fun _ hrole => hrole.elim⟩

theorem deleteCommand_spec (confirmed : Bool) :
    Triple (Invariant (K := K)) (deleteCommand confirmed) (fun _ => Invariant)
      fun _ => Invariant := by
  refine Triple.seq (fun _ => Invariant) ?_ fun available => ?_
  · refine Triple.recover (fun _ => Invariant) (Triple.bind (openLocked_spec.weaken (fun _ h => h)
      (fun _ _ h => h.1) fun stop w h => by cases stop <;> exact h) fun _ =>
      Triple.pure' fun _ h => h) fun _ => Triple.pure' fun _ h => h
  · split_ifs
    · refine Triple.recover (fun _ => Invariant) ?_ fun _ => Triple.pure' fun _ h => h
      have hrun : Triple (Invariant (K := K)) (do
          let metadata ← beginDeletion
          settle
          finishDeletion metadata
          return true) (fun _ => Invariant) fun _ => Invariant := Triple.bind beginDeletion_spec
        fun metadata => Triple.bind (settle_spec.weaken (fun _ h => h) (fun _ _ h => h)
        fun _ _ h => h.invariant) fun _ => Triple.bind (finishDeletion_spec metadata) fun _ =>
        Triple.pure' fun _ h => h.invariant
      exact hrun.weaken (fun _ h => h) (fun _ _ h => h) fun stop w h => by cases stop <;> exact h
    · exact Triple.pure' fun _ h => h

end Specifications

section Rollback

def World.isCommitted (w : World K) : Bool :=
  match w.metadata with
  | some metadata => decide (metadata.state = .committed)
  | none => false

/-- Neither attempted removal of the identity's keys reports a failure. -/
def RemovalSafe (identityId : Id) (w : World K) (faults : List Fault) : Prop :=
  OnFailure (deleteKeys identityId w faults) fun _ _ => False

instance (identityId : Id) (w : World K) (faults : List Fault) :
    Decidable (RemovalSafe identityId w faults) :=
  inferInstanceAs (Decidable (OnFailure (deleteKeys identityId w faults) fun _ _ => False))

/-- Where the error handler of `provisionLocked` starts: its removals of the keys report no
failure, and no step of it fails or is the last one when the committed metadata is in place. -/
def RollbackSafe (identityId : Id) (w : World K) (faults : List Fault) : Prop :=
  RemovalSafe identityId w faults ∧ (w.isCommitted = true → Quiet faults)

instance (identityId : Id) (w : World K) (faults : List Fault) :
    Decidable (RollbackSafe identityId w faults) :=
  inferInstanceAs (Decidable (_ ∧ _))

def GenerateSafe (identityId : Id) (identityKey signingKey : K.PublicKey) (w : World K)
    (faults : List Fault) : Prop :=
  OnFailure (generate identityId identityKey signingKey w faults) (RollbackSafe identityId)

/-- The metadata that `clearPreparing` removes, once it has read it. -/
def ClearSafe (w : World K) (faults : List Fault) : Prop :=
  match w.metadata with
  | none => True
  | some existing =>
      existing.state = .preparing →
        OnReturn (readMetadata w faults) (RemovalSafe existing.identityId)

/-- The removals of keys in this call, where their failures are ignored, are safe. -/
def ProvisionSafe (identityId : Id) (identityKey signingKey : K.PublicKey) (w : World K)
    (faults : List Fault) : Prop :=
  ClearSafe w faults ∧
    OnReturn (prepare identityId w faults) (GenerateSafe identityId identityKey signingKey)

instance (identityId : Id) (identityKey signingKey : K.PublicKey) (w : World K)
    (faults : List Fault) : Decidable (GenerateSafe identityId identityKey signingKey w faults) :=
  inferInstanceAs (Decidable (OnFailure (generate identityId identityKey signingKey w faults)
    (RollbackSafe identityId)))

instance (w : World K) (faults : List Fault) : Decidable (ClearSafe w faults) :=
  match h : w.metadata with
  | none => isTrue (by simp [ClearSafe, h])
  | some existing => decidable_of_iff (existing.state = .preparing →
      OnReturn (readMetadata w faults) (RemovalSafe existing.identityId)) (by simp [ClearSafe, h])

instance (identityId : Id) (identityKey signingKey : K.PublicKey) (w : World K)
    (faults : List Fault) : Decidable (ProvisionSafe identityId identityKey signingKey w faults) :=
  inferInstanceAs (Decidable (ClearSafe w faults ∧
    OnReturn (prepare identityId w faults) (GenerateSafe identityId identityKey signingKey)))

/-- Attempted removals that report no failure are removals. -/
theorem attempts_apply {α : Type} {identityId : Id} {w : World K} {faults : List Fault}
    (h : RemovalSafe identityId w faults) (k : Io K α) :
    (do
      attempt (deleteKey .identity identityId)
      attempt (deleteKey .signing identityId)
      k) w faults = (deleteKeys identityId >>= fun _ => k) w faults := by
  rw [RemovalSafe, deleteKeys, bind_apply] at h
  rw [bind_apply, bind_apply, deleteKeys, bind_apply, attempt, recover]
  cases hidentity : deleteKey .identity identityId w faults with
  | mk value w₁ rest =>
  rw [hidentity] at h
  cases value with
  | error stop =>
      cases stop with
      | failure _ => exact h.elim
      | crash => rfl
  | ok _ =>
      change OnFailure (deleteKey .signing identityId w₁ rest) _ at h
      simp only []
      rw [bind_apply, attempt, recover]
      cases hsigning : deleteKey .signing identityId w₁ rest with
      | mk value w₂ rest₂ =>
      rw [hsigning] at h
      cases value with
      | error stop =>
          cases stop with
          | failure _ => exact h.elim
          | crash => rfl
      | ok _ => rfl

theorem deleteKeys_quiet (identityId : Id) (w : World K) {faults : List Fault}
    (hquiet : Quiet faults) : ∃ w', deleteKeys identityId w faults = ⟨.ok (), w', faults.tail.tail⟩ := by
  have hdelete : ∀ role (w : World K) {faults : List Fault}, Quiet faults →
      deleteKey role identityId w faults =
        ⟨.ok (), { w with keychain := w.keychain.erase (role, identityId) }, faults.tail⟩ :=
    fun role w faults hquiet => effect_quiet _ rfl hquiet
  exact ⟨_, (bind_ok (hdelete .identity w hquiet)).trans (hdelete .signing _ hquiet.tail)⟩

private theorem Held.invariant {metadata : Option IdentityPublicMetadata} {identityId : Id}
    {gone : Role → Prop} {w w' : World K} (h : Held metadata identityId gone w')
    (hw : Attempted identityId w) (hmetadata : w.metadata = metadata)
    (hopen : w.isCommitted = false) : Invariant w' := by
  have howner := hw.owner
  rw [World.owner, hmetadata] at howner
  rw [World.isCommitted, hmetadata] at hopen
  cases metadata with
  | none => simp at howner
  | some metadata =>
      obtain rfl : metadata.identityId = identityId := by simpa using howner
      exact .of_uncommitted h.metadata (of_decide_eq_false hopen) h.owned

private theorem removal_ends {identityId : Id} {w w₁ : World K} {rest : List Fault}
    (hw : Attempted identityId w) (hheld : Held w.metadata identityId (fun _ => True) w₁)
    (hquiet : w.isCommitted = true → Quiet rest) :
    (attempt removeItem w₁ rest).Ends (fun _ => Invariant) fun _ => Invariant := by
  cases hcommitted : w.isCommitted with
  | true =>
      have hremove : removeItem w₁ rest = ⟨.ok (), { w₁ with metadata := none }, rest.tail⟩ :=
        effect_quiet _ rfl (hquiet hcommitted)
      rw [attempt, recover, hremove]
      exact hheld.vacant.invariant
  | false =>
      have hremove : Triple (Held w.metadata identityId fun _ => True) removeItem
          (fun _ => Vacant) fun _ => Invariant :=
        removeItem_spec (fun w' h => Held.invariant h hw rfl hcommitted) (fun _ h => h.vacant)
          fun _ h => h.invariant
      refine ends_recover (fun _ => Invariant) ((hremove w₁ rest hheld).weaken
        (fun _ _ h => h.invariant) fun stop _ h => by cases stop <;> exact h) ?_
      exact fun _ _ _ _ h => h

/-- The error handler of `provisionLocked`, where it is safe. -/
theorem rollback_ends {identityId : Id} {w : World K} {faults : List Fault}
    (hw : Attempted identityId w) (hsafe : RollbackSafe identityId w faults)
    (reason : IdentityStoreError) :
    (rollback identityId reason w faults).Ends (fun _ => Invariant) fun _ => Invariant := by
  have howned : OwnedBy (some identityId) w.keychain := hw.owner ▸ hw.invariant.owned
  have hdelete : (deleteKeys identityId w faults).Ends
      (fun _ => Held w.metadata identityId fun _ => True)
      (fun _ => Held w.metadata identityId fun _ => False) := deleteKeys_spec w faults ⟨rfl, howned, fun _ hrole => hrole.elim⟩
  rw [rollback, attempts_apply hsafe.1]
  refine ends_bind (fun _ => Held w.metadata identityId fun _ => True) ?_ ?_
  · cases hcommitted : w.isCommitted with
    | false => exact hdelete.weaken (fun _ _ h => h) fun _ _ h => Held.invariant h hw rfl hcommitted
    | true =>
        obtain ⟨w', hrun⟩ := deleteKeys_quiet identityId w (hsafe.2 hcommitted)
        rw [hrun] at hdelete ⊢
        exact hdelete
  · intro _ w₁ rest hrun hheld
    refine ends_bind _ (removal_ends hw hheld fun hcommitted => ?_) fun _ _ _ _ h => h
    obtain ⟨w', hrun'⟩ := deleteKeys_quiet identityId w (hsafe.2 hcommitted)
    rw [hrun'] at hrun
    obtain rfl : faults.tail.tail = rest := congrArg Outcome.faults hrun
    exact (hsafe.2 hcommitted).tail.tail

theorem clearPreparing_ends {w : World K} {faults : List Fault} (hw : Invariant w)
    (hsafe : ClearSafe w faults) :
    (clearPreparing w faults).Ends (fun _ => Vacant) fun _ => Invariant := by
  rw [clearPreparing, bind_ok (load_apply w faults)]
  split_ifs with hnone
  · refine ⟨hnone, ?_⟩
    have howned := hw.owned
    rwa [World.owner, hnone] at howned
  · refine ends_bind (fun metadata t => t = w ∧ w.metadata = some metadata)
      (Outcome.Ends.weaken (readMetadata_spec (P := (· = w)) w faults rfl)
        (fun _ _ h => ⟨h.1, h.1 ▸ h.2⟩) fun _ _ h => h ▸ hw) ?_
    rintro existing _ rest hread ⟨rfl, hexisting⟩
    match hstate : existing.state with
    | .deleting | .committed => exact hw
    | .preparing =>
        rw [ClearSafe, hexisting] at hsafe
        have hremoval := (hsafe hstate).of_ok hread
        have hremove : Triple (Held (K := K) (some existing) existing.identityId fun _ => False)
            (deleteKeys existing.identityId >>= fun _ => removeItem) (fun _ => Vacant)
            fun _ => Invariant := by
          have hkeep : ∀ {gone} w, Held (K := K) (some existing) existing.identityId gone w →
              Invariant w := fun w h => .of_uncommitted h.metadata (by simp [hstate]) h.owned
          exact Triple.bind (deleteKeys_spec.weaken (fun _ h => h) (fun _ _ h => h)
            fun _ w h => hkeep w h) fun _ => removeItem_spec (fun w h => hkeep w h)
            (fun _ h => h.vacant) fun _ h => h.invariant
        have hends := hremove _ rest ⟨hexisting, hw.owned_of hexisting, fun _ hrole => hrole.elim⟩
        rw [← attempts_apply hremoval] at hends
        exact hends

theorem prepare_ends {identityId : Id} {w : World K} {faults : List Fault} (hw : Invariant w)
    (hsafe : ClearSafe w faults) :
    (prepare identityId w faults).Ends (fun _ => Preparing identityId) fun _ => Invariant := by
  refine ends_bind _ (clearPreparing_ends hw hsafe) fun _ w₁ rest _ hvacant => ?_
  exact writeMetadata_spec (fun _ h => h.invariant) (fun _ h => ⟨rfl, h.owned.of_none⟩)
    (fun _ h => h.invariant) w₁ rest hvacant

theorem provision_invariant {identityId : Id} {identityKey signingKey : K.PublicKey} {w : World K}
    {faults : List Fault} (hw : Invariant w)
    (hsafe : ProvisionSafe identityId identityKey signingKey w faults) :
    Invariant (provision identityId identityKey signingKey w faults).store := by
  refine Outcome.Ends.store (ends_bind _ (prepare_ends hw hsafe.1) ?_)
  intro _ w₁ rest hprepare hpreparing
  refine ends_recover (fun _ => Attempted identityId) ?_ ?_
  · exact (generate_spec identityId identityKey signingKey w₁ rest hpreparing).weaken
      (fun _ _ h => h.invariant) fun stop _ h => by cases stop; exacts [h, h.invariant]
  · intro reason w₂ rest₂ hgenerate hattempted
    exact rollback_ends hattempted ((hsafe.2.of_ok hprepare).of_failure hgenerate) reason

end Rollback

end AgePluginPhone.Ios.IdentityKeyStore
