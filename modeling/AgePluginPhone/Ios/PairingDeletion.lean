import AgePluginPhone.Ios.PairingInvariant
import AgePluginPhone.Library.Machine

/-!
# Deletion of an identity's pairings on iOS

After every run of the pairing store, with any faults and stops, the deletion of an identity removes
all its pairings, as long as no pairing was started for a scope whose deletion was pending and none
with a key of the phone in a desktop role.
-/

namespace AgePluginPhone.Ios

open Library Cbor StrictCbor StorageM

variable {K : CryptoKit}

/-- What a scanned offer and the phone's identity and choices make of one pairing. -/
structure PairingAttempt (K : CryptoKit) where
  encoded : List Byte
  identityId : Bytes 16
  identityKey : K.PublicKey
  signingKey : K.PublicKey
  nonce : Bytes 32
  rawSignature : List Byte → List Byte

/-- The exchange before the user confirms the fingerprint, in `pairPhone`. -/
def PairingAttempt.exchange (a : PairingAttempt K) :
    Option (VerifiedPairingOffer K × VerifiedPairingResponse K) := do
  let offer ← (verifyPairingOffer K a.encoded).toOption
  let identity ← committedMetadata K a.identityId a.identityKey a.signingKey
  let response ← (createPairingResponse K offer identity a.signingKey a.nonce
    a.rawSignature).toOption
  return (offer, response)

inductive StoreCall (K : CryptoKit)
  | create (attempt : PairingAttempt K) (nowUnix : U64)
  | verifyAndConsume (encoded : List Byte) (nowUnix : U64)
  | revoke (requested : Digest) (identityId : Bytes 16)
  | revokeAll (identityId : Bytes 16)

/-- A call, and the faults its storage steps meet. -/
structure StoreEvent (K : CryptoKit) where
  call : StoreCall K
  faults : List Fault

/-- The files a call leaves, however it ends. -/
def storeStep (files : Directory) (e : StoreEvent K) : Option Directory :=
  match e.call with
  | .create attempt nowUnix =>
      match attempt.exchange with
      | some exchange => some (create K exchange.1 exchange.2 nowUnix files e.faults).store
      | none => some files
  | .verifyAndConsume encoded nowUnix =>
      some (verifyAndConsume K encoded nowUnix files e.faults).store
  | .revoke requested identityId => some (revoke K requested identityId files e.faults).store
  | .revokeAll identityId => some (revokeAll K identityId files e.faults).store

/-- Every file is readable and no scope has both a state file and a deleting file. -/
structure Deletable (K : CryptoKit) (files : Directory) : Prop where
  readable : Readable K files
  separate : Separate files

namespace Deletable

variable {files : Directory}

theorem empty : Deletable K ∅ :=
  ⟨fun file hfile => absurd hfile (List.not_mem_nil), fun n hlive => absurd (AList.lookup_empty _) hlive⟩

theorem erase (h : Deletable K files) (url : FileKey) : Deletable K (files.erase url) :=
  ⟨h.readable.erase url, h.separate.erase url⟩

theorem decode_of_lookup (h : Deletable K files) {url : FileKey} {content : List Byte}
    (hlookup : files.lookup url = some content) : ∃ s, decode K content = .ok s :=
  h.readable _ (AList.mem_lookup_iff.mp hlookup)

private theorem readable_insert (h : Readable K files) {content : List Byte}
    (hread : ∃ s, decode K content = .ok s) (url : FileKey) : Readable K (files.insert url content) := by
  intro file hfile
  rcases List.mem_cons.mp hfile with rfl | hfile
  · exact hread
  · exact h file ((List.kerase_sublist url files.entries).subset hfile)

/-- A readable state file may be written where no deletion is pending. -/
theorem insert_live (h : Deletable K files) {content : List Byte} {n : Digest}
    (hread : ∃ s, decode K content = .ok s) (hfree : files.lookup (n, true) = none) :
    Deletable K (files.insert (n, false) content) := by
  refine ⟨readable_insert h.readable hread _, fun m hlive => ?_⟩
  rw [AList.lookup_insert_ne (by simp)]
  by_cases hm : m = n
  · rw [hm]
    exact hfree
  · rw [AList.lookup_insert_ne (by simp [hm])] at hlive
    exact h.separate m hlive

theorem rename (h : Deletable K files) {content : List Byte} {n : Digest}
    (hlookup : files.lookup (n, false) = some content) :
    Deletable K ((files.erase (n, false)).insert (n, true) content) := by
  refine ⟨readable_insert (h.readable.erase _) (h.decode_of_lookup hlookup) _, fun m hlive => ?_⟩
  rw [AList.lookup_insert_ne (by simp)] at hlive
  by_cases hm : m = n
  · rw [hm, AList.lookup_erase] at hlive
    exact absurd rfl hlive
  · rw [AList.lookup_erase_ne (by simp [hm])] at hlive
    rw [AList.lookup_insert_ne (by simp [hm]), AList.lookup_erase_ne (by simp)]
    exact h.separate m hlive

/-- A consumption replaces a state file by a readable one. -/
theorem consume (h : Deletable K files) {encoded : List Byte} {nowUnix : U64}
    {request : VerifiedUnwrapRequest K} {state next : PairingState}
    (hconsumes : Consumes K files encoded nowUnix request state next) :
    Deletable K (files.insert (stateURL K state.record.desktopId state.record.identityId)
      (encode next)) := by
  obtain ⟨content, hlookup, hdecode⟩ := hconsumes.file
  obtain ⟨hwell, hroles⟩ := decode_wellFormed hdecode
  have hnext : decode K (encode next) = .ok next := by
    refine (hwell.consume hconsumes.consumed).read ?_
    rw [(consume_record hconsumes.consumed).1]
    exact hroles
  exact h.insert_live ⟨next, hnext⟩ (h.separate _ (by
    change files.lookup (stateURL K _ _) ≠ none
    rw [hlookup]
    simp))

end Deletable

section Steps

variable {files : Directory}

/-- However a creation ends, it has written its initial state in a free place or nothing. -/
theorem create_ends (offer : VerifiedPairingOffer K) (response : VerifiedPairingResponse K)
    (nowUnix : U64) (files : Directory) :
    Triple (fun w => w = files) (create K offer response nowUnix)
      (fun _ w => w = files ∨ Replaced files
        (encode (initialState (pairingRecord K offer response) nowUnix))
        (stateURL K offer.desktopId response.identityId) true w)
      fun _ w => w = files ∨ Replaced files
        (encode (initialState (pairingRecord K offer response) nowUnix))
        (stateURL K offer.desktopId response.identityId) true w := by
  refine Triple.check_bind (fun _ _ => ?_) fun _ _ _ hw => Or.inl hw
  refine Triple.bind ((settle_unchanged files).weaken (fun _ hw => hw) (fun _ _ hw => hw)
    fun _ _ hw => Or.inl hw) fun _ => ?_
  refine Triple.load_bind fun w => Triple.check_bind (fun _ _ => ?_) fun _ _ _ hw => Or.inl hw.1
  refine Triple.bind ((durableReplace_ends files _ _ true).weaken (fun _ hw => hw.1)
    (fun _ _ hw => hw) fun _ _ hw => hw) fun _ => Triple.pure' fun _ hw => Or.inr hw

theorem revoke_deletable (requested : Digest) (identityId : Bytes 16) :
    Triple (Deletable K) (revoke K requested identityId) (fun _ => Deletable K)
      fun _ => Deletable K := by
  have hsettle : Triple (Deletable K) settle (fun _ => Deletable K) fun _ => Deletable K := by
    intro w faults hw
    exact ((settle_unchanged w) w faults rfl).weaken (fun _ _ ht => ht ▸ hw) fun _ _ ht => ht ▸ hw
  have hunlink (url : FileKey) : Triple (Deletable K) (unlinkFile url) (fun _ => Deletable K)
      fun _ => Deletable K := by
    apply Triple.effect
    · intro w t hw heq
      obtain ⟨_, -, rfl⟩ := Option.map_eq_some_iff.mp heq
      exact ⟨hw.erase url, fun _ => hw.erase url⟩
    · exact fun _ hw _ => hw
  have hrename (n : Digest) : Triple (Deletable K) (renameFile (n, false) (n, true))
      (fun _ => Deletable K) fun _ => Deletable K := by
    apply Triple.effect
    · intro w t hw heq
      obtain ⟨content, hlookup, rfl⟩ := Option.map_eq_some_iff.mp heq
      exact ⟨hw.rename hlookup, fun _ => hw.rename hlookup⟩
    · exact fun _ hw _ => hw
  have hrest (url : FileKey) : Triple (Deletable K) (do
      unlinkFile (url.1, true)
      settle) (fun _ => Deletable K) fun _ => Deletable K :=
    Triple.bind (hunlink _) fun _ => hsettle
  refine Triple.load_bind fun w => Triple.check_bind (fun found _ => ?_) fun _ _ _ hw => hw.1
  refine Triple.check_bind (fun url _ => ?_) fun _ _ _ hw => hw.1
  refine Triple.bind (hsettle.weaken (fun _ hw => hw.1) (fun _ _ hw => hw) fun _ _ hw => hw)
    fun _ => ?_
  refine Triple.load_bind fun w => Triple.check_bind (fun content _ => ?_) fun _ _ _ hw => hw.1
  refine Triple.check_bind (fun state _ => ?_) fun _ _ _ hw => hw.1
  refine Triple.check_bind (fun _ _ => ?_) fun _ _ _ hw => hw.1
  refine Triple.weaken ?_ (fun _ hw => hw.1) (fun _ _ hw => hw) fun _ _ hw => hw
  obtain ⟨n, pending⟩ := url
  cases pending with
  | true => exact hrest _
  | false => exact Triple.bind (hrename n) fun _ => Triple.bind hsettle fun _ => hrest _

theorem revokeAll_deletable (identityId : Bytes 16) :
    Triple (Deletable K) (revokeAll K identityId) (fun _ => Deletable K) fun _ => Deletable K := by
  refine Triple.load_bind fun w => Triple.check_bind (fun items _ => ?_) fun _ _ _ hw => hw.1
  exact (Triple.forM fun item _ => revoke_deletable item.handle identityId).weaken
    (fun _ hw => hw.1) (fun _ _ hw => hw) fun _ _ hw => hw

end Steps

section Runs

/-- A creation that finds its scope without a state file finds no pending deletion of it either, and
the offered keys are not the phone's signing key. -/
def CreatesSafely (files : Directory) (e : StoreEvent K) : Prop :=
  match e.call with
  | .create attempt _ =>
      match attempt.exchange with
      | some exchange =>
          let url := stateURL K exchange.1.desktopId exchange.2.identityId
          files.lookup url = none → files.lookup (url.1, true) = none ∧
            exchange.1.desktopSigningPublicKey ≠ attempt.signingKey ∧
            exchange.1.desktopSelectionPublicKey ≠ attempt.signingKey
      | none => True
  | _ => True

instance (files : Directory) : ∀ e : StoreEvent K, Decidable (CreatesSafely files e)
  | ⟨.create attempt nowUnix, faults⟩ =>
      match h : attempt.exchange with
      | some exchange => decidable_of_iff
          (files.lookup (stateURL K exchange.1.desktopId exchange.2.identityId) = none →
            files.lookup ((stateURL K exchange.1.desktopId exchange.2.identityId).1, true) = none ∧
              exchange.1.desktopSigningPublicKey ≠ attempt.signingKey ∧
              exchange.1.desktopSelectionPublicKey ≠ attempt.signingKey)
          (by simp only [CreatesSafely, h])
      | none => isTrue (by simp only [CreatesSafely, h])
  | ⟨.verifyAndConsume _ _, _⟩ | ⟨.revoke _ _, _⟩ | ⟨.revokeAll _, _⟩ => isTrue trivial

/-- The record of an exchange is readable unless a desktop key is the phone's signing key. -/
theorem exchange_readable {attempt : PairingAttempt K}
    {exchange : VerifiedPairingOffer K × VerifiedPairingResponse K}
    (h : attempt.exchange = some exchange)
    (hsigning : exchange.1.desktopSigningPublicKey ≠ attempt.signingKey)
    (hselection : exchange.1.desktopSelectionPublicKey ≠ attempt.signingKey) (nowUnix : U64) :
    decode K (encode (initialState (pairingRecord K exchange.1 exchange.2) nowUnix)) =
      .ok (initialState (pairingRecord K exchange.1 exchange.2) nowUnix) := by
  simp only [PairingAttempt.exchange, Option.bind_eq_bind, Option.bind_eq_some_iff,
    Option.pure_def, Option.some.injEq] at h
  obtain ⟨offer, hoffer, identity, hidentity, response, hresponse, rfl⟩ := h
  have hok {α : Type} {x : Except Failure α} {a : α} (hx : x.toOption = some a) : x = .ok a := by
    cases x with
    | ok b => exact congrArg _ (Option.some.inj hx)
    | error failure => cases hx
  obtain ⟨hlabel, hoffered⟩ := verifyPairingOffer_eq_ok (hok hoffer)
  obtain ⟨-, -, hrecipient⟩ := committedMetadata_eq_some hidentity
  obtain ⟨-, hname, hphone, -⟩ := createPairingResponse_eq_ok (hok hresponse)
  have hwell : (initialState (pairingRecord K offer response) nowUnix).WellFormed := by
    refine initialState_wellFormed nowUnix hlabel ?_
    rw [pairingRecord, hname]
    exact hrecipient
  refine hwell.read ((requireRoles_pairingRecord _ hoffered).mpr ?_)
  rw [hphone]
  exact ⟨hsigning, hselection⟩

theorem deletable_step {files files' : Directory} {e : StoreEvent K} (hsafe : CreatesSafely files e)
    (h : Deletable K files) (hstep : storeStep files e = some files') : Deletable K files' := by
  obtain ⟨call, faults⟩ := e
  cases call with
  | create attempt nowUnix =>
      simp only [storeStep] at hstep
      simp only [CreatesSafely] at hsafe
      cases hexchange : attempt.exchange with
      | none =>
          rw [hexchange] at hstep
          exact Option.some.inj hstep ▸ h
      | some exchange =>
          rw [hexchange] at hstep hsafe
          have hends := (create_ends exchange.1 exchange.2 nowUnix files files faults rfl).store
          rw [Option.some.inj hstep] at hends
          rcases hends with hsame | hreplaced
          · exact hsame ▸ h
          · obtain ⟨hwritten, hcreate⟩ := hreplaced
            obtain ⟨hfree, hsigning, hselection⟩ := hsafe (hcreate rfl)
            rw [hwritten]
            exact h.insert_live ⟨_, exchange_readable hexchange hsigning hselection nowUnix⟩ hfree
  | verifyAndConsume encoded nowUnix =>
      rw [← Option.some.inj hstep]
      change Deletable K (verifyAndConsume K encoded nowUnix files faults).store
      have hends := verifyAndConsume_ends K encoded nowUnix files
        files faults rfl
      have hstore := Outcome.Ends.store (Q := fun w => w = files ∨ ∃ request state next,
        Consumes K files encoded nowUnix request state next ∧ w = files.insert
          (stateURL K state.record.desktopId state.record.identityId) (encode next))
        (hends.weaken (fun request _ hw => Or.inr ⟨request, hw⟩) fun _ _ hw => hw)
      rcases hstore with hsame | hconsumed
      · rw [hsame]
        exact h
      · obtain ⟨request, state, next, hconsumes, hwritten⟩ := hconsumed
        rw [hwritten]
        exact h.consume hconsumes
  | revoke requested identityId =>
      obtain rfl := Option.some.inj hstep
      exact (revoke_deletable requested identityId files faults h).store
  | revokeAll identityId =>
      obtain rfl := Option.some.inj hstep
      exact (revokeAll_deletable identityId files faults h).store

/-- After every run that starts no pairing while the deletion of its scope is pending and none with
the phone's signing key in a desktop role, whatever faults and stops the run met: no scope has both a
state file and a deleting file, and a deletion of an identity without faults returns and leaves only
pairings of other identities. -/
theorem pairing_deletion_completes (events : List (StoreEvent K)) (files : Directory)
    (hsafe : Machine.Admissible storeStep (fun _ _ => (none : Option Unit))
      (fun _ => CreatesSafely) [] ∅ events)
    (hrun : Machine.run storeStep ∅ events = some files) (identityId : Bytes 16) :
    Separate files ∧ ∃ files', revokeAll K identityId files [] = ⟨.ok (), files', []⟩ ∧
      ∀ file ∈ files'.entries, ∃ s, decode K file.2 = .ok s ∧ s.record.identityId ≠ identityId := by
  have hstep : ∀ (_ : List Unit) (s : Directory) (e : StoreEvent K) (t : Directory), e ∈ events →
      CreatesSafely s e → Deletable K s → storeStep s e = some t → Deletable K t :=
    fun _ _ _ _ _ hallowed hs hnext => deletable_step hallowed hs hnext
  have h : Deletable K files :=
    Machine.run_preserves_of_admissible hstep Deletable.empty hsafe hrun
  obtain ⟨files', hrevoke, hread, hnone⟩ := revokeAll_of_readable h.readable h.separate identityId
  refine ⟨h.separate, files', hrevoke, fun file hfile => ?_⟩
  obtain ⟨s, hs⟩ := hread file hfile
  refine ⟨s, hs, fun hown => ?_⟩
  have hfound : handle K s.record ∈ files'.entries.filterMap (ownHandle K identityId) :=
    List.mem_filterMap.mpr ⟨file, hfile, ownHandle_eq_some.mpr ⟨s, hs, hown, rfl⟩⟩
  rw [hnone] at hfound
  exact absurd hfound (List.not_mem_nil)

end Runs

section Sample

/-- The signatures of the sample responses have the same first half as those of the sample offers. -/
private def laterSignature : List Byte :=
  (sampleResponseSignature .desktopSelection).take 32 ++
    bigEndian 32 0x19ccb82764aaed4bd8b7b85e7ba5aaf772da03dcd1249df72bc0403636416d8f

private def laterResponse : List Byte :=
  encodeSigned (Item.array [.unsigned 2, .unsigned 2, .unsigned 1, .bytes (List.replicate 16 2),
    .text "age1phone1qypkk9737tsjcsj8lz7wdetr53q0yacr0kqjm6en5r62zw29mzvv99sa27n9c",
    .bytes (compressed sampleCryptoKit samplePhoneSigningKey).1,
    .bytes (bigEndian 32 0x1c7eff69cd461998f88101b9a168d71b43d1f9f5680a20d8dc1c2c06f0eccd91),
    .bytes (List.replicate 32 45)]).encode laterSignature

private def laterFingerprint : List Byte :=
  bigEndian 32 0x0b360e2fb6c77465a648f117e68b1a659aae0cc908391fca17ed954b5a5563e1

/-- The sample CryptoKit, with the digests of a second response to the sample offer. -/
def sampleDeletionKit : CryptoKit :=
  { sampleCryptoKit with
    sha256 := fun input =>
      if input = domainInput fingerprintDomain (sampleOffer .desktopSelection ++ laterResponse) then
        ⟨laterFingerprint, bigEndian_length _ _⟩
      else if input = managementDomain ++ [0] ++ List.replicate 16 2 ++ List.replicate 16 1 ++
          laterFingerprint then
        ⟨bigEndian 32 0x06b57f80e4377f634cf9f080c20052c564ea98417c6f163609e7641ae1c352f7,
          bigEndian_length _ _⟩
      else sampleCryptoKit.sha256 input }

/-- The sample pairing, with the nonce and the signature of its response. -/
def sampleAttempt (nonce : Bytes 32) (signature : List Byte) : PairingAttempt sampleDeletionKit where
  encoded := sampleOffer .desktopSelection
  identityId := Bytes.replicate 16 2
  identityKey := SampleKey.identity
  signingKey := SampleKey.phoneSigning
  nonce := nonce
  rawSignature := fun _ => signature

def sampleHandle : Digest :=
  ⟨bigEndian 32 0x1c84801d7ee84f0f32b31a64428df8f9568a9a856a448bf4c7d8b15e4abc458d,
    bigEndian_length _ _⟩

/-- A pairing, and its revocation that stops between the rename and the removal. -/
def sampleStoppedRevocation : List (StoreEvent sampleDeletionKit) :=
  [⟨.create (sampleAttempt (Bytes.replicate 32 8) (sampleResponseSignature .desktopSelection)) 1000, []⟩,
    ⟨.revoke sampleHandle (Bytes.replicate 16 2), [.none, .stopped true]⟩]

theorem pairing_deletion_completes_after_stop :
    ∃ files files', Machine.run storeStep ∅ sampleStoppedRevocation = some files ∧
      files.entries.length = 1 ∧
      revokeAll sampleDeletionKit (Bytes.replicate 16 2) files [] = ⟨.ok (), files', []⟩ := by
  have hone : (Machine.run storeStep ∅ sampleStoppedRevocation).map (fun files =>
      files.entries.length) = some 1 := by
    decide +kernel
  obtain ⟨files, hrun, hlength⟩ := Option.map_eq_some_iff.mp hone
  obtain ⟨-, files', hrevoke, -⟩ := pairing_deletion_completes sampleStoppedRevocation files
    (by decide +kernel) hrun (Bytes.replicate 16 2)
  exact ⟨files, files', hrun, hlength, hrevoke⟩

/-- A second pairing of the scope while the deletion is pending is stored, and the deletion of the
identity removes both files at once and then misses the second. -/
theorem pairing_deletion_stuck :
    (Machine.run storeStep ∅ (sampleStoppedRevocation ++
        [⟨.create (sampleAttempt (Bytes.replicate 32 45) laterSignature) 1001, []⟩])).map (fun files =>
      (files.entries.map Sigma.fst,
        (revokeAll sampleDeletionKit (Bytes.replicate 16 2) files []).value)) =
      some ([stateURL sampleDeletionKit (Bytes.replicate 16 1) (Bytes.replicate 16 2),
        ((stateURL sampleDeletionKit (Bytes.replicate 16 1) (Bytes.replicate 16 2)).1, true)],
        .error (.failure (.store .missing))) := by
  decide +kernel

end Sample

end AgePluginPhone.Ios
