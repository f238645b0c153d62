import AgePluginPhone.Android.PhoneIdentityLifecycle
import AgePluginPhone.Ios.IdentityLifecycle
import AgePluginPhone.Ios.PairingRoles

/-!
# Phone identity lifecycle

The identity of a phone on both platforms, over every run of its calls.
-/

namespace AgePluginPhone.Phone

open Library Library.StorageM

/-- The runs, from an empty store, whose calls of `provision` clean up safely. -/
def AndroidSafe (C : Android.PhoneIdentityKeyStore.RecipientCodec)
    (events : List Android.PhoneIdentityKeyStore.Event) : Prop :=
  Machine.Admissible (Android.PhoneIdentityKeyStore.World.step C) (fun _ _ => (none : Option Unit))
    (fun _ => Android.PhoneIdentityKeyStore.EventSafe C) []
    Android.PhoneIdentityKeyStore.World.empty events

def IosSafe (K : Ios.CryptoKit) (events : List (Ios.IdentityKeyStore.Event K)) : Prop :=
  Machine.Admissible Ios.IdentityKeyStore.World.step (fun _ _ => (none : Option Unit))
    (fun _ => Ios.IdentityKeyStore.EventSafe) [] (Ios.IdentityKeyStore.World.empty K) events

instance (C : Android.PhoneIdentityKeyStore.RecipientCodec)
    (events : List Android.PhoneIdentityKeyStore.Event) : Decidable (AndroidSafe C events) :=
  inferInstanceAs (Decidable (Machine.Admissible _ _ _ _ _ _))

instance (K : Ios.CryptoKit) (events : List (Ios.IdentityKeyStore.Event K)) :
    Decidable (IosSafe K events) :=
  inferInstanceAs (Decidable (Machine.Admissible _ _ _ _ _ _))

/-- After every run whose calls of `provision` clean up safely, whatever faults and stops the
other steps met, no key is leaked, opening is sound, and the identity can be created or deleted. -/
theorem identity_lifecycle (C : Android.PhoneIdentityKeyStore.RecipientCodec) (K : Ios.CryptoKit) :
    (∀ events w, AndroidSafe C events →
      Machine.run (Android.PhoneIdentityKeyStore.World.step C)
        Android.PhoneIdentityKeyStore.World.empty events = some w →
      Android.PhoneIdentityKeyStore.Dependable C w) ∧
    ∀ events w, IosSafe K events →
      Machine.run Ios.IdentityKeyStore.World.step (Ios.IdentityKeyStore.World.empty K) events =
        some w →
      Ios.IdentityKeyStore.Dependable w :=
  ⟨fun _ _ hsafe hrun => Android.PhoneIdentityKeyStore.run_dependable hsafe hrun,
    fun _ _ hsafe hrun => Ios.IdentityKeyStore.run_dependable hsafe hrun⟩

section Sample

open Android.PhoneIdentityKeyStore in
/-- A codec for the one recipient of the sample identity. -/
def sampleCodec : RecipientCodec where
  encodeRecipient _ := "age1phone1q"
  size_le _ := by decide +kernel

def sampleIdentityId : Bytes 16 := Bytes.replicate 16 2

def sampleKey (n : Byte) : Android.PhoneIdentityKeyStore.KeyEntry :=
  ⟨⟨2 :: List.replicate 32 n, rfl⟩, true⟩

/-- A provisioning that meets the given faults, on Android. -/
def sampleProvision (faults : List Fault) : Android.PhoneIdentityKeyStore.Event :=
  ⟨.provision sampleIdentityId (sampleKey 1) (sampleKey 2), faults⟩

/-- The same on iOS. -/
def sampleIosProvision (faults : List Fault) : Ios.IdentityKeyStore.Event Ios.sampleCryptoKit :=
  ⟨.provision sampleIdentityId Ios.sampleIdentityKey Ios.samplePhoneSigningKey, faults⟩

/-- Provisioning that stops after its first key is stored, provisioning again, and a deletion
that fails. -/
def sampleRun : List Android.PhoneIdentityKeyStore.Event :=
  [sampleProvision (List.replicate 7 .none ++ [.stopped true]), sampleProvision [],
    ⟨.deleteIdentity true, [.none, .failed true]⟩]

def sampleIosRun : List (Ios.IdentityKeyStore.Event Ios.sampleCryptoKit) :=
  [sampleIosProvision (List.replicate 4 .none ++ [.stopped true]), sampleIosProvision [],
    ⟨.deleteIdentity true, [.none, .failed true]⟩]

theorem identity_lifecycle_after_stop :
    (∃ w, Machine.run (Android.PhoneIdentityKeyStore.World.step sampleCodec)
        Android.PhoneIdentityKeyStore.World.empty sampleRun = some w ∧
      Android.PhoneIdentityKeyStore.Dependable sampleCodec w) ∧
    ∃ w, Machine.run Ios.IdentityKeyStore.World.step
        (Ios.IdentityKeyStore.World.empty Ios.sampleCryptoKit) sampleIosRun = some w ∧
      Ios.IdentityKeyStore.Dependable w :=
  ⟨⟨_, rfl, (identity_lifecycle sampleCodec Ios.sampleCryptoKit).1 sampleRun _
      (by decide +kernel) rfl⟩,
    ⟨_, rfl, (identity_lifecycle sampleCodec Ios.sampleCryptoKit).2 sampleIosRun _
      (by decide +kernel) rfl⟩⟩

/-- The second key is not generated and the first one cannot be removed: the state file goes, and
the key stays. -/
def leakingRun : List Android.PhoneIdentityKeyStore.Event :=
  [sampleProvision (List.replicate 8 .none ++ [.failed false, .failed false])]

/-- The sync after the committed state file fails, the error handler removes both keys, and the
removal of the state file fails. -/
def stuckRun : List Android.PhoneIdentityKeyStore.Event :=
  [sampleProvision (List.replicate 15 .none ++ .failed true :: List.replicate 4 .none ++
    [.failed false])]

open Android.PhoneIdentityKeyStore in
/-- One run leaks a key. Another leaves a store that can be neither opened, deleted nor
provisioned. -/
theorem identity_leaked_and_stuck :
    (∃ w, Machine.run (World.step sampleCodec) World.empty leakingRun = some w ∧
      ¬ OwnedBy w.owner w.keys) ∧
    ∃ w, Machine.run (World.step sampleCodec) World.empty stuckRun = some w ∧
      (openIdentity sampleCodec w []).value = .error (.failure .missing) ∧
      (deleteCommand sampleCodec true w []).value = .ok false ∧
      ∀ identityId identityKey signingKey,
        (provision sampleCodec identityId identityKey signingKey w []).value =
          .error (.failure .alreadyExists) := by
  refine ⟨⟨_, rfl, fun howned => ?_⟩, ⟨_, rfl, by rfl, by rfl, fun _ _ _ => by rfl⟩⟩
  have hkey := howned.lookup_eq_none (.identity, sampleIdentityId)
  exact absurd hkey (by decide +kernel)

end Sample

end AgePluginPhone.Phone
