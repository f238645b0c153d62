import AgePluginPhone.Ios.IdentityInvariant
import AgePluginPhone.Library.Machine

/-!
# iOS identity lifecycle

Calls of the identity store in any order, each with the faults it meets. As on Android, a state
that keeps the invariant is never a dead end.
-/

namespace AgePluginPhone.Ios.IdentityKeyStore

open Library StorageM

variable {K : CryptoKit}

inductive Call (K : CryptoKit)
  | provision (identityId : Id) (identityKey signingKey : K.PublicKey)
  | status
  | deleteIdentity (confirmed : Bool)

structure Event (K : CryptoKit) where
  call : Call K
  faults : List Fault

/-- The store a call leaves, whatever it returns. -/
def World.step (w : World K) (e : Event K) : Option (World K) :=
  some (match e.call with
    | .provision identityId identityKey signingKey =>
        (provision identityId identityKey signingKey w e.faults).store
    | .status => (openLocked w e.faults).store
    | .deleteIdentity confirmed => (deleteCommand confirmed w e.faults).store)

/-- Where `provision` ignores failures of its removals, they are safe. -/
def EventSafe (w : World K) (e : Event K) : Prop :=
  match e.call with
  | .provision identityId identityKey signingKey =>
      ProvisionSafe identityId identityKey signingKey w e.faults
  | _ => True

instance (w : World K) : ∀ e : Event K, Decidable (EventSafe w e)
  | ⟨.provision identityId identityKey signingKey, faults⟩ =>
      inferInstanceAs (Decidable (ProvisionSafe identityId identityKey signingKey w faults))
  | ⟨.status, _⟩ | ⟨.deleteIdentity _, _⟩ => isTrue trivial

section Completion

theorem readMetadata_apply {metadata : IdentityPublicMetadata} {w : World K}
    (h : w.metadata = some metadata) : readMetadata w [] = ⟨.ok metadata, w, []⟩ := by
  rw [readMetadata, bind_ok (load_apply w []), bind_ok (check_apply_ok (okOr_eq_ok.mpr h))]
  rfl

theorem readKey_apply {role : Role} {identityId : Id} {key : K.PublicKey} {w : World K}
    (h : w.keychain.lookup (role, identityId) = some key) :
    readKey role identityId w [] = ⟨.ok key, w, []⟩ := by
  have hsettle : settle w [] = ⟨.ok (), w, []⟩ := rfl
  rw [readKey, bind_ok hsettle, bind_ok (load_apply w [])]
  exact check_apply_ok (okOr_eq_ok.mpr h)

theorem writeMetadata_apply (next : IdentityPublicMetadata) (createOnly : Bool) {w : World K}
    (h : createOnly = true → w.metadata = none) :
    writeMetadata next createOnly w [] = ⟨.ok (), { w with metadata := some next }, []⟩ := by
  have hsettle : ∀ w : World K, settle w [] = ⟨.ok (), w, []⟩ := fun _ => rfl
  have hinstall : installMetadata next createOnly w [] =
      ⟨.ok (), { w with metadata := some next }, []⟩ :=
    effect_apply _ (if_neg fun hcreate => hcreate.2 (h hcreate.1))
  rw [writeMetadata, bind_ok (load_apply w []), bind_ok (check_apply_ok (ensure_true _ h)),
    bind_ok (hsettle w), bind_ok hinstall, hsettle]

theorem storeKey_apply {role : Role} {identityId : Id} (key : K.PublicKey) {w : World K}
    (h : w.keychain.lookup (role, identityId) = none) :
    storeKey role identityId key w [] =
      ⟨.ok (), { w with keychain := w.keychain.insert (role, identityId) key }, []⟩ :=
  effect_apply _ (if_pos h)

/-- No metadata, or metadata that `provision` clears. -/
def World.isFree (w : World K) : Prop :=
  ∀ metadata, w.metadata = some metadata → metadata.state = .preparing

theorem clearSafe_nil (w : World K) : ClearSafe w [] := by
  cases hmetadata : w.metadata with
  | none => simp [ClearSafe, hmetadata]
  | some existing =>
      rw [ClearSafe, hmetadata]
      intro _
      obtain ⟨w', hrun⟩ := deleteKeys_quiet existing.identityId w
        (show Quiet [] by simp [Quiet])
      rw [readMetadata_apply hmetadata]
      change RemovalSafe existing.identityId w []
      rw [RemovalSafe, hrun]
      trivial

theorem clearPreparing_completes {w : World K} (hw : Invariant w) (hfree : w.isFree) :
    ∃ w', clearPreparing w [] = ⟨.ok (), w', []⟩ ∧ Vacant w' := by
  have hends := clearPreparing_ends hw (clearSafe_nil w)
  have hrun : ∃ w', clearPreparing w [] = ⟨.ok (), w', []⟩ := by
    rw [clearPreparing, bind_ok (load_apply w [])]
    split_ifs with hnone
    · exact ⟨w, rfl⟩
    · obtain ⟨existing, hmetadata⟩ := Option.ne_none_iff_exists'.mp hnone
      rw [bind_ok (readMetadata_apply hmetadata), hfree existing hmetadata]
      exact ⟨_, rfl⟩
  obtain ⟨w', hrun⟩ := hrun
  rw [hrun] at hends
  exact ⟨w', hrun, hends⟩

theorem prepare_completes {w : World K} (hw : Invariant w) (hfree : w.isFree) (identityId : Id) :
    ∃ w', prepare identityId w [] = ⟨.ok (), w', []⟩ ∧ OwnedBy none w'.keychain := by
  obtain ⟨w₁, hclear, hvacant⟩ := clearPreparing_completes hw hfree
  have hwrite := writeMetadata_apply (preparingMetadata identityId) true
    fun _ => hvacant.metadata
  exact ⟨_, (bind_ok hclear).trans hwrite, hvacant.owned⟩

theorem generate_completes (identityId : Id) {identityKey signingKey : K.PublicKey}
    (hdistinct : identityKey ≠ signingKey) {w : World K} (hempty : OwnedBy none w.keychain) :
    ∃ metadata w', generate identityId identityKey signingKey w [] = ⟨.ok metadata, w', []⟩ := by
  have hsettle : settle w [] = ⟨.ok (), w, []⟩ := rfl
  have hroles : compressed K identityKey ≠ compressed K signingKey :=
    fun h => hdistinct (compressed_injective K h)
  obtain ⟨metadata, hmetadata⟩ : ∃ metadata,
      committedMetadata K identityId identityKey signingKey = some metadata :=
    ⟨_, if_pos hroles⟩
  let w₁ : World K := { w with keychain := w.keychain.insert (.identity, identityId) identityKey }
  have hsigning : w₁.keychain.lookup (.signing, identityId) = none :=
    (AList.lookup_insert_ne (by simp)).trans (hempty.lookup_eq_none _)
  have hwrite := writeMetadata_apply (K := K) metadata false
    (w := { w₁ with keychain := w₁.keychain.insert (.signing, identityId) signingKey }) (by simp)
  rw [generate, bind_ok hsettle, bind_ok (check_apply_ok (okOr_eq_ok.mpr hmetadata)),
    bind_ok (storeKey_apply identityKey (hempty.lookup_eq_none _)),
    bind_ok (storeKey_apply signingKey hsigning), bind_ok hwrite]
  exact ⟨metadata, _, rfl⟩

/-- Without faults `provision` succeeds where there is no committed or deleting metadata. -/
theorem provision_completes {identityId : Id} {identityKey signingKey : K.PublicKey} {w : World K}
    (hw : Invariant w) (hfree : w.isFree) (hdistinct : identityKey ≠ signingKey) :
    ∃ metadata w', provision identityId identityKey signingKey w [] = ⟨.ok metadata, w', []⟩ := by
  obtain ⟨w₁, hprepare, hempty⟩ := prepare_completes hw hfree identityId
  obtain ⟨metadata, w₂, hgenerate⟩ := generate_completes identityId hdistinct hempty
  rw [provision, bind_ok hprepare, recover, hgenerate]
  exact ⟨metadata, w₂, rfl⟩

theorem openLocked_committed {metadata : IdentityPublicMetadata} {w : World K} (hw : Invariant w)
    (hmetadata : w.metadata = some metadata) (hstate : metadata.state = .committed) :
    openLocked w [] = ⟨.ok metadata, w, []⟩ := by
  obtain ⟨identityKey, signingKey, hidentity, hsigning, hcommitted⟩ :=
    hw.committed metadata hmetadata hstate
  simp only [committedMetadata] at hcommitted
  split_ifs at hcommitted with hroles
  obtain hcommitted := Option.some.inj hcommitted
  have hguards : metadata.version = 1 ∧ metadata.state = .committed ∧
      metadata.identityPublicKey.length = 33 ∧ metadata.signingPublicKey.length = 33 ∧
      metadata.identityPublicKey ≠ metadata.signingPublicKey := by
    rw [← hcommitted]
    exact ⟨rfl, rfl, (compressed K identityKey).2, (compressed K signingKey).2,
      fun h => hroles (Subtype.ext h)⟩
  have hlive : (compressed K identityKey).1 = metadata.identityPublicKey ∧
      (compressed K signingKey).1 = metadata.signingPublicKey ∧
      RecipientEncoding.encode K identityKey false = metadata.recipient := by
    rw [← hcommitted]
    exact ⟨rfl, rfl, rfl⟩
  rw [openLocked, bind_ok (readMetadata_apply hmetadata),
    bind_ok (check_apply_ok (ensure_true _ (by simp [hstate]))),
    bind_ok (check_apply_ok (ensure_true _ hguards)), bind_ok (readKey_apply hidentity),
    bind_ok (readKey_apply hsigning), bind_ok (check_apply_ok (ensure_true _ hlive)), pure_apply]

theorem openLocked_deleting {metadata : IdentityPublicMetadata} {w : World K}
    (hmetadata : w.metadata = some metadata) (hstate : metadata.state = .deleting) :
    openLocked w [] = ⟨.error (.failure .deletionPending), w, []⟩ := by
  rw [openLocked, bind_ok (readMetadata_apply hmetadata), ensure_false _ (by simp [hstate])]
  rfl

/-- Metadata that the plugin's deletion accepts. -/
def World.isHeld (w : World K) : Prop :=
  ∃ metadata, w.metadata = some metadata ∧ metadata.state ≠ .preparing

theorem beginDeletion_completes {w : World K} (hheld : w.isHeld) :
    ∃ metadata w', beginDeletion w [] = ⟨.ok metadata, w', []⟩ := by
  obtain ⟨current, hmetadata, hstate⟩ := hheld
  rw [beginDeletion, bind_ok (readMetadata_apply hmetadata)]
  match hcurrent : current.state with
  | .preparing => exact absurd hcurrent hstate
  | .deleting => exact ⟨current, w, rfl⟩
  | .committed =>
      have hwrite := writeMetadata_apply (K := K) { current with state := .deleting } false
        (w := w) (by simp)
      exact ⟨_, _, bind_ok (f := fun _ => pure _) hwrite⟩

theorem finishDeletion_completes (metadata : IdentityPublicMetadata) (w : World K) :
    ∃ w', finishDeletion metadata w [] = ⟨.ok (), w', []⟩ := by
  have hdelete : ∀ role (w : World K), deleteKey role metadata.identityId w [] =
      ⟨.ok (), { w with keychain := w.keychain.erase (role, metadata.identityId) }, []⟩ :=
    fun _ _ => rfl
  rw [finishDeletion, bind_ok (hdelete .identity w), bind_ok (hdelete .signing _),
    bind_ok (load_apply _ [])]
  split_ifs
  · exact ⟨_, rfl⟩
  · exact ⟨_, rfl⟩

/-- Without faults a confirmed deletion completes from committed or deleting metadata. -/
theorem deleteCommand_completes {w : World K} (hw : Invariant w) (hheld : w.isHeld) :
    ∃ w', deleteCommand true w [] = ⟨.ok true, w', []⟩ := by
  have havailable : recover (openLocked >>= fun _ => pure true)
      (fun reason => pure (decide (reason = .deletionPending))) w [] = ⟨.ok true, w, []⟩ := by
    obtain ⟨metadata, hmetadata, hstate⟩ := hheld
    match hcurrent : metadata.state with
    | .preparing => exact absurd hcurrent hstate
    | .committed =>
        rw [recover, bind_ok (openLocked_committed hw hmetadata hcurrent), pure_apply]
    | .deleting =>
        rw [recover, bind_apply, openLocked_deleting hmetadata hcurrent]
        rfl
  obtain ⟨metadata, w₁, hbegin⟩ := beginDeletion_completes hheld
  obtain ⟨w₂, hfinish⟩ := finishDeletion_completes metadata w₁
  have hsettle : settle w₁ [] = ⟨.ok (), w₁, []⟩ := rfl
  rw [deleteCommand, bind_ok havailable, if_pos ⟨rfl, rfl⟩, recover, bind_ok hbegin,
    bind_ok hsettle, bind_ok hfinish, pure_apply]
  exact ⟨w₂, rfl⟩

theorem free_or_held (w : World K) : w.isFree ∨ w.isHeld := by
  cases hmetadata : w.metadata with
  | none => exact Or.inl fun metadata h => by simp [hmetadata] at h
  | some current =>
      by_cases hstate : current.state = .preparing
      · refine Or.inl fun metadata h => ?_
        obtain rfl := Option.some.inj (hmetadata.symm.trans h)
        exact hstate
      · exact Or.inr ⟨current, hmetadata, hstate⟩

end Completion

theorem step_invariant {w w' : World K} {e : Event K} (hw : Invariant w) (hsafe : EventSafe w e)
    (hstep : w.step e = some w') : Invariant w' := by
  obtain rfl := Option.some.inj hstep
  obtain ⟨call, faults⟩ := e
  cases call with
  | provision identityId identityKey signingKey => exact provision_invariant hw hsafe
  | status => exact ((openLocked_spec w faults hw).weaken (fun _ _ h => h.1) fun _ _ h => h).store
  | deleteIdentity confirmed => exact (deleteCommand_spec confirmed w faults hw).store

/-- No key is leaked, opening is sound, and the identity can be created or deleted. -/
structure Dependable (w : World K) : Prop where
  owned : OwnedBy w.owner w.keychain
  opens : ∀ faults metadata, (openLocked w faults).value = .ok metadata →
    w.metadata = some metadata ∧ metadata.state = .committed ∧
      ∃ identityKey signingKey, Matches w metadata identityKey signingKey
  recovers : (∀ identityId identityKey signingKey, identityKey ≠ signingKey →
      ∃ metadata w', provision identityId identityKey signingKey w [] = ⟨.ok metadata, w', []⟩) ∨
    ∃ w', deleteCommand true w [] = ⟨.ok true, w', []⟩

theorem Invariant.dependable {w : World K} (hw : Invariant w) : Dependable w where
  owned := hw.owned
  opens faults metadata hopen := by
    have hspec := openLocked_spec (K := K) (P := fun w' => w' = w) w faults rfl
    obtain ⟨hsame, hopened⟩ := hspec.of_ok hopen
    rw [hsame] at hopened
    exact hopened
  recovers := (free_or_held w).imp (fun hfree _ _ _ => provision_completes hw hfree)
    fun hheld => deleteCommand_completes hw hheld

theorem run_dependable {w : World K} {events : List (Event K)}
    (hsafe : Machine.Admissible World.step (fun _ _ => (none : Option Unit))
      (fun _ => EventSafe) [] (World.empty K) events)
    (hrun : Machine.run World.step (World.empty K) events = some w) : Dependable w := by
  have hempty : Vacant (World.empty K) := ⟨rfl, OwnedBy.empty⟩
  exact (Machine.run_preserves_of_admissible (fun _ _ _ _ _ hallowed hw => step_invariant hw hallowed)
    hempty.invariant hsafe hrun).dependable

end AgePluginPhone.Ios.IdentityKeyStore
