import AgePluginPhone.Android.PhoneIdentityInvariant
import AgePluginPhone.Library.Machine

/-!
# Android identity lifecycle

Calls of the identity store in any order, each with the faults it meets. A state that keeps the
invariant is never a dead end: without faults either `provision` or the plugin's deletion
succeeds.
-/

namespace AgePluginPhone.Android.PhoneIdentityKeyStore

open Library StorageM

variable (C : RecipientCodec)

inductive Call
  | provision (identityId : Id) (identityKey signingKey : KeyEntry)
  | openIdentity
  | identityStatus
  | deleteIdentity (confirmed : Bool)

structure Event where
  call : Call
  faults : List Fault

/-- The store a call leaves, whatever it returns. -/
def World.step (w : World) (e : Event) : Option World :=
  some (match e.call with
    | .provision identityId identityKey signingKey =>
        (provision C identityId identityKey signingKey w e.faults).store
    | .openIdentity => (openIdentity C w e.faults).store
    | .identityStatus => (identityStatus C w e.faults).store
    | .deleteIdentity confirmed => (deleteCommand C confirmed w e.faults).store)

/-- The error handler of `provision` runs where it is safe. -/
def EventSafe (w : World) (e : Event) : Prop :=
  match e.call with
  | .provision identityId identityKey signingKey =>
      ProvisionSafe C identityId identityKey signingKey w e.faults
  | _ => True

instance (w : World) : ∀ e : Event, Decidable (EventSafe C w e)
  | ⟨.provision identityId identityKey signingKey, faults⟩ =>
      inferInstanceAs (Decidable (ProvisionSafe C identityId identityKey signingKey w faults))
  | ⟨.openIdentity, _⟩ | ⟨.identityStatus, _⟩ | ⟨.deleteIdentity _, _⟩ => isTrue trivial

variable {C}

section Completion

@[simp] theorem settle_apply (reason : Category) (w : World) :
    settle reason w [] = ⟨.ok (), w, []⟩ := rfl

theorem readState_apply {w : World} (hw : Invariant C w) :
    readState C w [] = ⟨.ok w.state, w, []⟩ := by
  have hvalid : validateState C w.state = .ok () := by
    match hstate : w.state with
    | none | some (.preparing _) => rfl
    | some (.committed metadata) => exact (hw.committed metadata hstate).valid
    | some (.deleting metadata) => exact hw.deleting metadata hstate
  rw [readState, bind_ok (settle_apply _ w), bind_ok (load_apply w []),
    bind_ok (check_apply_ok hvalid), pure_apply]

theorem containsAlias_apply (role : Role) (identityId : Id) (w : World) :
    containsAlias role identityId w [] =
      ⟨.ok (w.keys.lookup (role, identityId)).isSome, w, []⟩ := rfl

theorem getKey_apply {role : Role} {identityId : Id} {key : KeyEntry} {w : World}
    (h : w.keys.lookup (role, identityId) = some key) :
    getKey role identityId w [] = ⟨.ok key, w, []⟩ := by
  rw [getKey, bind_ok (settle_apply _ w), bind_ok (load_apply w [])]
  exact check_apply_ok (okOr_eq_ok.mpr h)

/-- Both keys are there, as generated, under different public keys. -/
structure Generated (identityId : Id) (identityKey signingKey : KeyEntry) (w : World) : Prop where
  identity : w.keys.lookup (.identity, identityId) = some identityKey
  signing : w.keys.lookup (.signing, identityId) = some signingKey
  acceptable : identityKey.acceptable = true ∧ signingKey.acceptable = true
  distinct : identityKey.publicKey ≠ signingKey.publicKey

variable (C) in
def generatedMetadata (identityId : Id) (identityKey signingKey : KeyEntry) :
    PhoneIdentityPublic :=
  ⟨identityId, C.encodeRecipient identityKey.publicKey, identityKey.publicKey,
    signingKey.publicKey⟩

theorem publicMetadata_apply {identityId : Id} {identityKey signingKey : KeyEntry} {w : World}
    (h : Generated identityId identityKey signingKey w) :
    publicMetadata C identityId w [] =
      ⟨.ok (generatedMetadata C identityId identityKey signingKey), w, []⟩ := by
  rw [publicMetadata, bind_ok (getKey_apply h.identity), bind_ok (getKey_apply h.signing),
    bind_ok (check_apply_ok (ensure_true _ h.distinct)), pure_apply]
  rfl

theorem inspect_apply {identityId : Id} {identityKey signingKey : KeyEntry} {w : World}
    (h : Generated identityId identityKey signingKey w) :
    inspect identityId w [] = ⟨.ok (), w, []⟩ := by
  rw [inspect, bind_ok (getKey_apply h.identity), bind_ok (getKey_apply h.signing)]
  exact check_apply_ok (ensure_true _ h.acceptable)

theorem cleanupAliases_completes (identityId : Id) :
    Completes (fun _ => True) (cleanupAliases identityId) fun _ _ => True := by
  have halias : ∀ role, Completes (fun _ => True) (cleanupAlias identityId role)
      fun _ _ => True := by
    intro role w _
    rw [cleanupAlias, bind_ok (containsAlias_apply role identityId w)]
    split_ifs
    · exact ⟨_, _, effect_apply _ rfl, trivial⟩
    · exact ⟨_, w, rfl, trivial⟩
  exact Completes.bind (halias .identity) fun _ => halias .signing

/-- No state file, or one that `provision` clears. -/
def World.isFree (w : World) : Prop :=
  w.state = none ∨ ∃ identityId, w.state = some (.preparing identityId)

theorem clearPreparing_completes :
    Completes (fun w => Invariant C w ∧ w.isFree) (clearPreparing C) fun _ => Vacant := by
  refine Completes.of_triple ?_ (clearPreparing_spec.weaken (fun _ h => h.1) (fun _ _ h => h)
    fun _ _ h => h)
  rintro w ⟨hw, hfree⟩
  rw [clearPreparing, bind_ok (readState_apply hw)]
  rcases hfree with hstate | ⟨existing, hstate⟩
  · rw [hstate]
    exact ⟨(), w, rfl, trivial⟩
  · rw [hstate]
    obtain ⟨_, w', hrun, -⟩ := cleanupAliases_completes existing w trivial
    have hdelete := (bind_ok (f := fun _ => deleteState) hrun).trans
      (deleteState_quiet w' (by simp [Quiet]))
    exact ⟨(), _, hdelete, trivial⟩

theorem prepare_completes (identityId : Id) :
    Completes (fun w => Invariant C w ∧ w.isFree) (prepare C identityId)
      fun _ => Preparing identityId := by
  refine Completes.of_triple ?_ ((prepare_spec identityId).weaken (fun _ h => h.1)
    (fun _ _ h => h) fun _ _ h => h)
  intro w hw
  obtain ⟨_, w', hrun, hvacant⟩ := clearPreparing_completes w hw
  have hunused : ∀ role, containsAlias role identityId w' [] = ⟨.ok false, w', []⟩ := by
    intro role
    rw [containsAlias_apply, hvacant.owned.lookup_eq_none]
    rfl
  rw [prepare, bind_ok (settle_apply _ w), bind_ok hrun, bind_ok (hunused .identity),
    bind_ok (hunused .signing), bind_ok (check_apply_ok (ensure_true _ ⟨rfl, rfl⟩))]
  exact ⟨(), _, rfl, trivial⟩

theorem validatePublic_generated {identityId : Id} {identityKey signingKey : KeyEntry}
    (hdistinct : identityKey.publicKey ≠ signingKey.publicKey) :
    validatePublic C (generatedMetadata C identityId identityKey signingKey) = .ok () :=
  bind_eq_ok.mpr ⟨(), ensure_true _ hdistinct, ensure_true _ ⟨rfl, C.size_le _⟩⟩

theorem commitCommitted_apply {metadata : PhoneIdentityPublic} {w : World}
    (hvalid : validatePublic C metadata = .ok ()) :
    commitCommitted C metadata w [] =
      ⟨.ok (), { w with state := some (.committed metadata) }, []⟩ := by
  rw [commitCommitted, bind_ok (check_apply_ok hvalid)]
  rfl

theorem generate_completes (identityId : Id) {identityKey signingKey : KeyEntry}
    (hacceptable : identityKey.acceptable = true ∧ signingKey.acceptable = true)
    (hdistinct : identityKey.publicKey ≠ signingKey.publicKey) (w : World) :
    ∃ w', generate C identityId identityKey signingKey w [] =
      ⟨.ok (generatedMetadata C identityId identityKey signingKey), w', []⟩ := by
  let w₁ : World := { w with keys := w.keys.insert (.identity, identityId) identityKey }
  let w₂ : World := { w₁ with keys := w₁.keys.insert (.signing, identityId) signingKey }
  have hidentity : generateKey .identity identityId identityKey w [] = ⟨.ok (), w₁, []⟩ :=
    effect_apply _ rfl
  have hsigning : generateKey .signing identityId signingKey w₁ [] = ⟨.ok (), w₂, []⟩ :=
    effect_apply _ rfl
  have hkeys : Generated identityId identityKey signingKey w₂ := by
    refine ⟨?_, AList.lookup_insert _, hacceptable, hdistinct⟩
    exact (AList.lookup_insert_ne (by simp)).trans (AList.lookup_insert _)
  rw [generate, bind_ok hidentity, bind_ok hsigning, bind_ok (publicMetadata_apply hkeys),
    bind_ok (inspect_apply hkeys),
    bind_ok (commitCommitted_apply (validatePublic_generated hdistinct))]
  exact ⟨_, rfl⟩

/-- Without faults `provision` succeeds where there is no committed or deleting state. -/
theorem provision_completes {identityId : Id} {identityKey signingKey : KeyEntry} {w : World}
    (hw : Invariant C w) (hfree : w.isFree)
    (hacceptable : identityKey.acceptable = true ∧ signingKey.acceptable = true)
    (hdistinct : identityKey.publicKey ≠ signingKey.publicKey) :
    ∃ metadata w', provision C identityId identityKey signingKey w [] = ⟨.ok metadata, w', []⟩ := by
  obtain ⟨_, w₁, hprepare, -⟩ := prepare_completes identityId w ⟨hw, hfree⟩
  obtain ⟨w₂, hgenerate⟩ := generate_completes (C := C) identityId hacceptable hdistinct w₁
  rw [provision, bind_ok hprepare, recover, hgenerate]
  exact ⟨_, w₂, rfl⟩

theorem validatePublic_inv {metadata : PhoneIdentityPublic}
    (h : validatePublic C metadata = .ok ()) :
    metadata.identityPublicKey ≠ metadata.signingPublicKey ∧
      C.encodeRecipient metadata.identityPublicKey = metadata.recipient := by
  obtain ⟨_, hdistinct, hrecipient⟩ := bind_eq_ok.mp h
  exact ⟨ensure_eq_ok.mp hdistinct, (ensure_eq_ok.mp hrecipient).1⟩

theorem Matches.generated {metadata : PhoneIdentityPublic} {w : World}
    (h : Matches C w metadata) : ∃ identityKey signingKey,
      Generated metadata.identityId identityKey signingKey w ∧
        generatedMetadata C metadata.identityId identityKey signingKey = metadata := by
  obtain ⟨⟨identity, hidentity, haccept, hpublic⟩, ⟨signing, hsigning, haccept', hpublic'⟩,
    hvalid⟩ := h
  obtain ⟨hdistinct, hrecipient⟩ := validatePublic_inv hvalid
  refine ⟨identity, signing, ⟨hidentity, hsigning, ⟨haccept, haccept'⟩, ?_⟩, ?_⟩
  · rwa [hpublic, hpublic']
  · rw [generatedMetadata, hpublic, hpublic', hrecipient]

theorem openIdentity_apply {metadata : PhoneIdentityPublic} {w : World} (hw : Invariant C w)
    (hstate : w.state = some (.committed metadata)) :
    openIdentity C w [] = ⟨.ok metadata, w, []⟩ := by
  obtain ⟨identity, signing, hkeys, hmetadata⟩ := (hw.committed metadata hstate).generated
  rw [openIdentity, bind_ok (settle_apply _ w), bind_ok (readState_apply hw), hstate]
  have hlive : (publicMetadata C metadata.identityId >>= fun live => do
      check (ensure (metadata = live) .metadataMismatch)
      inspect metadata.identityId
      return live) w [] = ⟨.ok metadata, w, []⟩ := by
    rw [bind_ok (publicMetadata_apply hkeys), hmetadata,
      bind_ok (check_apply_ok (ensure_true _ rfl)), bind_ok (inspect_apply hkeys), pure_apply]
  exact hlive

theorem identityStatus_committed {metadata : PhoneIdentityPublic} {w : World}
    (hw : Invariant C w) (hstate : w.state = some (.committed metadata)) :
    identityStatus C w [] = ⟨.ok .ready, w, []⟩ := by
  rw [identityStatus, recover, bind_ok (openIdentity_apply hw hstate),
    bind_ok (settle_apply _ w), pure_apply]

theorem identityStatus_deleting {metadata : PhoneIdentityPublic} {w : World}
    (hw : Invariant C w) (hstate : w.state = some (.deleting metadata)) :
    identityStatus C w [] = ⟨.ok .deletionPending, w, []⟩ := by
  have hopen : openIdentity C w [] = ⟨.error (.failure .deletionPending), w, []⟩ := by
    rw [openIdentity, bind_ok (settle_apply _ w), bind_ok (readState_apply hw), hstate]
    rfl
  rw [identityStatus, recover, bind_apply, hopen]
  rfl

/-- A state that the plugin's deletion accepts. -/
def World.isHeld (w : World) : Prop :=
  ∃ metadata, w.state = some (.committed metadata) ∨ w.state = some (.deleting metadata)

theorem beginDeletion_completes :
    Completes (fun w => Invariant C w ∧ w.isHeld) (beginDeletion C) (Deleting C) := by
  refine Completes.of_triple ?_ (beginDeletion_spec.weaken (fun _ h => h.1) (fun _ _ h => h)
    fun _ _ h => h)
  rintro w ⟨hw, metadata, hstate | hstate⟩
  · have hcommit : commitDeleting C metadata w [] =
        ⟨.ok (), { w with state := some (.deleting metadata) }, []⟩ := by
      rw [commitDeleting, bind_ok (check_apply_ok (hw.committed metadata hstate).valid)]
      rfl
    rw [beginDeletion, bind_ok (settle_apply _ w), bind_ok (readState_apply hw), hstate]
    exact ⟨metadata, _, bind_ok (f := fun _ => pure metadata) hcommit, trivial⟩
  · rw [beginDeletion, bind_ok (settle_apply _ w), bind_ok (readState_apply hw), hstate]
    exact ⟨metadata, w, rfl, trivial⟩

theorem finishDeletion_completes (metadata : PhoneIdentityPublic) {w : World}
    (hw : Deleting C metadata w) :
    ∃ w', finishDeletion metadata.identityId w [] = ⟨.ok (), w', []⟩ := by
  have hheld : Triple (fun w' => w' = w) (cleanupAliases metadata.identityId)
      (fun _ => Held w.state metadata.identityId fun _ => True)
      (fun _ => Held w.state metadata.identityId fun _ => False) := cleanupAliases_spec.weaken
    (by rintro w' rfl; exact ⟨rfl, hw.owned, fun _ hrole => hrole.elim⟩)
    (fun _ _ h => h) fun _ _ h => h
  obtain ⟨_, w₁, hcleanup, hgone⟩ := Completes.of_triple ((cleanupAliases_completes
    metadata.identityId).weaken (fun _ _ => trivial) fun _ _ h => h) hheld w rfl
  have hunused : ∀ role, containsAlias role metadata.identityId w₁ [] = ⟨.ok false, w₁, []⟩ := by
    intro role
    rw [containsAlias_apply, hgone.gone role trivial]
    rfl
  rw [finishDeletion, bind_ok (settle_apply _ w), bind_ok hcleanup, bind_ok (hunused .identity),
    bind_ok (hunused .signing), bind_ok (check_apply_ok (ensure_true _ ⟨rfl, rfl⟩)),
    deleteState_quiet w₁ (by simp [Quiet])]
  exact ⟨_, rfl⟩

/-- Without faults a confirmed deletion completes from a committed or a deleting state. -/
theorem deleteCommand_completes {w : World} (hw : Invariant C w) (hheld : w.isHeld) :
    ∃ w', deleteCommand C true w [] = ⟨.ok true, w', []⟩ := by
  have hstatus : ∃ status, (status = .ready ∨ status = .deletionPending) ∧
      identityStatus C w [] = ⟨.ok status, w, []⟩ := by
    obtain ⟨metadata, hstate | hstate⟩ := hheld
    · exact ⟨_, Or.inl rfl, identityStatus_committed hw hstate⟩
    · exact ⟨_, Or.inr rfl, identityStatus_deleting hw hstate⟩
  obtain ⟨status, haccepted, hrun⟩ := hstatus
  obtain ⟨metadata, w₁, hbegin, hdeleting⟩ := beginDeletion_completes w ⟨hw, hheld⟩
  obtain ⟨w₂, hfinish⟩ := finishDeletion_completes metadata hdeleting
  have hdelete : deleteIdentity C w [] = ⟨.ok (), w₂, []⟩ := by
    rw [deleteIdentity, bind_ok hbegin, recover, hfinish]
  rw [deleteCommand, bind_ok hrun, if_pos haccepted, if_pos rfl, recover, bind_ok hdelete,
    pure_apply]
  exact ⟨w₂, rfl⟩

theorem free_or_held (w : World) : w.isFree ∨ w.isHeld := by
  match hstate : w.state with
  | none => exact Or.inl (Or.inl hstate)
  | some (.preparing identityId) => exact Or.inl (Or.inr ⟨identityId, hstate⟩)
  | some (.committed metadata) => exact Or.inr ⟨metadata, Or.inl hstate⟩
  | some (.deleting metadata) => exact Or.inr ⟨metadata, Or.inr hstate⟩

end Completion

theorem step_invariant {w w' : World} {e : Event} (hw : Invariant C w) (hsafe : EventSafe C w e)
    (hstep : w.step C e = some w') : Invariant C w' := by
  obtain rfl := Option.some.inj hstep
  obtain ⟨call, faults⟩ := e
  cases call with
  | provision identityId identityKey signingKey => exact provision_invariant hw hsafe
  | openIdentity => exact ((openIdentity_spec w faults hw).weaken (fun _ _ h => h.1)
      fun _ _ h => h).store
  | identityStatus => exact (identityStatus_spec w faults hw).store
  | deleteIdentity confirmed => exact (deleteCommand_spec confirmed w faults hw).store

variable (C) in
/-- No key is leaked, opening is sound, and the identity can be created or deleted. -/
structure Dependable (w : World) : Prop where
  owned : OwnedBy w.owner w.keys
  opens : ∀ faults metadata, (openIdentity C w faults).value = .ok metadata →
    w.state = some (.committed metadata) ∧ Matches C w metadata
  recovers : (∀ identityId identityKey signingKey,
      identityKey.acceptable = true ∧ signingKey.acceptable = true →
      identityKey.publicKey ≠ signingKey.publicKey → ∃ metadata w',
        provision C identityId identityKey signingKey w [] = ⟨.ok metadata, w', []⟩) ∨
    ∃ w', deleteCommand C true w [] = ⟨.ok true, w', []⟩

theorem Invariant.dependable {w : World} (hw : Invariant C w) : Dependable C w where
  owned := hw.owned
  opens faults metadata hopen := by
    have hspec := openIdentity_spec (C := C) (P := fun w' => w' = w) w faults rfl
    obtain ⟨hsame, hstate, hmatches⟩ := hspec.of_ok hopen
    rw [hsame] at hstate hmatches
    exact ⟨hstate, hmatches⟩
  recovers := (free_or_held w).imp (fun hfree _ _ _ => provision_completes hw hfree)
    fun hheld => deleteCommand_completes hw hheld

theorem run_dependable {w : World} {events : List Event}
    (hsafe : Machine.Admissible (World.step C) (fun _ _ => (none : Option Unit))
      (fun _ => EventSafe C) [] World.empty events)
    (hrun : Machine.run (World.step C) World.empty events = some w) : Dependable C w := by
  have hempty : Vacant World.empty := ⟨rfl, OwnedBy.empty⟩
  exact (Machine.run_preserves_of_admissible (fun _ _ _ _ _ hallowed hw => step_invariant hw hallowed)
    hempty.invariant hsafe hrun).dependable

end AgePluginPhone.Android.PhoneIdentityKeyStore
