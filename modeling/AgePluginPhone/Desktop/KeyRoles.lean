import AgePluginPhone.Core.MessageKinds
import AgePluginPhone.Desktop.PairingStub

/-!
# Key roles of a pairing

The four keys of an accepted pairing are compared as bytes. They are canonical and different as
points exactly when no key that reached a lenient decoder is in compact form.
-/

namespace AgePluginPhone.Desktop

open Library AgePluginPhone.Core P256

variable (C : Crates) (m : TextMinicbor)

/-- Canonical compressed encodings of points that differ pairwise. -/
structure RoleSeparated (keys : List EncodedPublicKey) : Prop where
  canonical : ∀ bytes ∈ keys, IsCompressed bytes ∧ ∃ key, encodePublic C key = bytes
  distinct : keys.Pairwise fun (a b : EncodedPublicKey) => C.fromSec1Bytes a ≠ C.fromSec1Bytes b

def IsCompact (bytes : EncodedPublicKey) : Prop := bytes.1.head? = some 5

instance (bytes : EncodedPublicKey) : Decidable (IsCompact bytes) :=
  inferInstanceAs (Decidable (_ = _))

variable {C}

theorem isCompressed_iff {bytes : EncodedPublicKey} (h : (C.fromSec1Bytes bytes).isSome) :
    IsCompressed bytes ↔ ¬ IsCompact bytes := by
  obtain ⟨key, hkey⟩ := Option.isSome_iff_exists.mp h
  constructor
  · intro htag hcompact
    rw [IsCompressed, hcompact] at htag
    exact absurd htag (by decide)
  · intro hcompact
    exact (C.tag_fromSec1Bytes bytes key hkey).resolve_right hcompact

/-- Keys that decode and differ as bytes are separated as soon as none is in compact form. -/
theorem roleSeparated_iff {keys : List EncodedPublicKey}
    (hvalid : ∀ bytes ∈ keys, (C.fromSec1Bytes bytes).isSome) (hdistinct : keys.Pairwise (· ≠ ·)) :
    RoleSeparated C keys ↔ ∀ bytes ∈ keys, ¬ IsCompact bytes := by
  constructor
  · intro hroles bytes hbytes
    exact (isCompressed_iff (hvalid bytes hbytes)).mp (hroles.canonical bytes hbytes).1
  · intro hcompact
    have hencoded : ∀ bytes ∈ keys, IsCompressed bytes ∧ ∃ key,
        C.fromSec1Bytes bytes = some key ∧ encodePublic C key = bytes := by
      intro bytes hbytes
      have htag := (isCompressed_iff (hvalid bytes hbytes)).mpr (hcompact bytes hbytes)
      obtain ⟨key, hkey⟩ := Option.isSome_iff_exists.mp (hvalid bytes hbytes)
      exact ⟨htag, key, hkey, C.compressed_fromSec1Bytes bytes key hkey htag⟩
    refine ⟨fun bytes hbytes => ?_, ?_⟩
    · obtain ⟨htag, key, -, hkey⟩ := hencoded bytes hbytes
      exact ⟨htag, key, hkey⟩
    · apply hdistinct.imp_of_mem
      intro a b ha hb hne hsame
      obtain ⟨-, key, hkey, hakey⟩ := hencoded a ha
      obtain ⟨-, other, hother, hbkey⟩ := hencoded b hb
      rw [hkey, hother, Option.some.injEq] at hsame
      apply hne
      rw [← hakey, ← hbkey, hsame]

theorem encodePublic_valid (key : C.PublicKey) :
    (C.fromSec1Bytes (encodePublic C key)).isSome ∧ ¬ IsCompact (encodePublic C key) := by
  have hvalid : (C.fromSec1Bytes (encodePublic C key)).isSome :=
    Option.isSome_iff_exists.mpr ⟨key, C.fromSec1Bytes_compressed key⟩
  exact ⟨hvalid, (isCompressed_iff hvalid).mp (encodePublic_isCompressed key)⟩

/-- The role keys of a response to an offer: phone identity, desktop signing, desktop selection
and phone signing. -/
def pairingKeys (offer : SignedPairingOffer) (response : SignedPairingResponse)
    (identity : C.PublicKey) : List EncodedPublicKey :=
  [encodePublic C identity, offer.payload.desktopSigningPublicKey,
    offer.payload.desktopSelectionPublicKey, response.payload.phoneSigningPublicKey]

def stubKeys (stub : PublicIdentityStub) (identity : C.PublicKey) : List EncodedPublicKey :=
  [encodePublic C identity, stub.desktopSigningPublicKey, stub.desktopSelectionPublicKey,
    stub.phoneSigningPublicKey]

theorem verified_pairing_roles {offer : SignedPairingOffer} {response : SignedPairingResponse}
    (h : SignedPairingResponse.verify C response offer = .ok ()) :
    ∃ identity, Recipient.parse C response.payload.recipient = .ok identity ∧
      (RoleSeparated C (pairingKeys offer response identity) ↔
        ¬ IsCompact offer.payload.desktopSigningPublicKey ∧
          ¬ IsCompact response.payload.phoneSigningPublicKey) := by
  obtain ⟨hoffer, ⟨identity, hrecipient, hown, hkeys⟩, -, phone, hphone, -⟩ :=
    SignedPairingResponse.verify_eq_ok.mp h
  obtain ⟨-, ⟨selection, hselection⟩, hdesktop, signing, hsigning, -⟩ :=
    SignedPairingOffer.verify_eq_ok.mp hoffer
  obtain ⟨hidentityValid, hidentityTag⟩ := encodePublic_valid identity
  obtain ⟨hselectionValid, hselectionTag⟩ := encodePublic_valid selection
  rw [← hselection] at hselectionValid hselectionTag
  refine ⟨identity, Recipient.parse_eq_ok.mpr hrecipient, ?_⟩
  simp only [List.forall_mem_cons] at hkeys
  obtain ⟨hidentityKeys, hphoneKeys, -⟩ := hkeys
  rw [roleSeparated_iff]
  · simp [pairingKeys, hidentityTag, hselectionTag]
  · simp [pairingKeys, hidentityValid, hselectionValid, hsigning, hphone]
  · simp [pairingKeys, hown, hidentityKeys, hdesktop.symm, hphoneKeys.1.symm, hphoneKeys.2.symm]

theorem decoded_stub_roles {m : TextMinicbor} {bytes : List Byte} {stub : PublicIdentityStub}
    (h : PublicIdentityStub.decode C m bytes = .ok stub) :
    ∃ identity, Recipient.parse C stub.recipient = .ok identity ∧
      (RoleSeparated C (stubKeys stub identity) ↔ ¬ IsCompact stub.desktopSigningPublicKey ∧
        ¬ IsCompact stub.desktopSelectionPublicKey ∧ ¬ IsCompact stub.phoneSigningPublicKey) := by
  obtain ⟨-, identity, hrecipient, hvalid, hdistinct⟩ := PublicIdentityStub.decode_eq_ok.mp h
  obtain ⟨hidentityValid, hidentityTag⟩ := encodePublic_valid identity
  refine ⟨identity, Recipient.parse_eq_ok.mpr hrecipient, ?_⟩
  rw [stubKeys, roleSeparated_iff (List.forall_mem_cons.mpr ⟨hidentityValid, hvalid⟩) hdistinct]
  simp [hidentityTag]

variable (C) in
/-- Accepted pairings and stubs keep the roles apart exactly when the keys that `verifying` and
the stub decoder read are not in compact form. -/
theorem role_separation (m : TextMinicbor) :
    (∀ offerBytes responseBytes offer response,
      SignedPairingOffer.decode m offerBytes = .ok offer →
      SignedPairingResponse.decode C m responseBytes = .ok response →
      SignedPairingResponse.verify C response offer = .ok () →
      ∃ identity, Recipient.parse C response.payload.recipient = .ok identity ∧
        (RoleSeparated C (pairingKeys offer response identity) ↔
          ¬ IsCompact offer.payload.desktopSigningPublicKey ∧
            ¬ IsCompact response.payload.phoneSigningPublicKey)) ∧
    ∀ bytes stub, PublicIdentityStub.decode C m bytes = .ok stub →
      ∃ identity, Recipient.parse C stub.recipient = .ok identity ∧
        (RoleSeparated C (stubKeys stub identity) ↔ ¬ IsCompact stub.desktopSigningPublicKey ∧
          ¬ IsCompact stub.desktopSelectionPublicKey ∧ ¬ IsCompact stub.phoneSigningPublicKey) :=
  ⟨fun _ _ _ _ _ _ hverify => verified_pairing_roles hverify,
    fun _ _ hdecode => decoded_stub_roles hdecode⟩

section Sample

/-- The stub of the sample pairing. -/
def sampleStub (compact : Bool) : PublicIdentityStub where
  desktopId := Bytes.replicate 16 1
  identityId := Bytes.replicate 16 2
  recipient := sampleRecipient
  desktopSigningPublicKey := sampleSigningKey compact
  desktopSelectionPublicKey := sampleSelectionKey compact
  phoneSigningPublicKey := encodeCompressed phoneSigningPoint
  offerDigest := (sampleResponse compact).payload.offerDigest
  transcriptFingerprint := number 32 (if compact then
      0x1ae58fa99a7f02ea5f699ef903fe2ec77c79b35b7256944b677e743cec8a5f62
    else 0x75fe694e8f9d0052213b8a633c307a23f61efa1b3261be6164386b438c6d91ce)

private abbrev sampleCrates (compact : Bool) : Crates := Crates.ofTable (sampleTable compact)

private theorem sampleOffer_accepted (compact : Bool) :
    SignedPairingOffer.decode .definite (SignedPairingOffer.encode (sampleOffer compact)) =
        .ok (sampleOffer compact) ∧
      SignedPairingOffer.verify (sampleCrates compact) (sampleOffer compact) = .ok () := by
  constructor
  · rw [SignedPairingOffer.decode_eq_ok]
    cases compact <;> decide +kernel
  · cases compact <;> decide +kernel

private theorem sampleResponse_accepted (compact : Bool) :
    SignedPairingResponse.decode (sampleCrates compact) .definite
        (SignedPairingResponse.encode (sampleResponse compact)) = .ok (sampleResponse compact) ∧
      SignedPairingResponse.verify (sampleCrates compact) (sampleResponse compact)
        (sampleOffer compact) = .ok () := by
  have hrecipient : (sampleResponse compact).payload.recipient = _ := sampleRecipient_eq (sampleTable compact)
  have hphone : (sampleCrates compact).fromSec1Bytes (encodeCompressed phoneSigningPoint) =
      some phoneSigningPoint := ofTable_fromSec1Bytes _ _
  have hown : encodePublic (sampleCrates compact) identityPoint ≠ encodeCompressed phoneSigningPoint := by
    cases compact <;> decide +kernel
  constructor
  · rw [SignedPairingResponse.decode_eq_ok, validatePairingResponse_eq_ok]
    refine ⟨rfl, by cases compact <;> decide +kernel, identityPoint, hrecipient, ⟨_, hphone⟩, hown⟩
  · rw [SignedPairingResponse.verify_eq_ok]
    refine ⟨(sampleOffer_accepted compact).2, ⟨identityPoint, hrecipient, hown, ?_⟩, ?_,
      phoneSigningPoint, hphone, ?_⟩
    · cases compact <;> decide +kernel
    · cases compact <;> decide +kernel
    · cases compact <;> decide +kernel

private theorem sampleStub_accepted (compact : Bool) :
    PublicIdentityStub.decode (sampleCrates compact) .definite (sampleStub compact).encode =
      .ok (sampleStub compact) := by
  rw [PublicIdentityStub.decode_eq_ok]
  refine ⟨rfl, identityPoint, sampleRecipient_eq _, ?_, ?_⟩
  · cases compact <;> decide +kernel
  · cases compact <;> decide +kernel

theorem role_separation_sample :
    (∃ identity, Recipient.parse (Crates.ofTable (sampleTable false))
      (sampleResponse false).payload.recipient = .ok identity ∧
      RoleSeparated (Crates.ofTable (sampleTable false))
        (pairingKeys (sampleOffer false) (sampleResponse false) identity)) ∧
    ∃ identity, Recipient.parse (Crates.ofTable (sampleTable false))
      (sampleStub false).recipient = .ok identity ∧
      RoleSeparated (Crates.ofTable (sampleTable false)) (stubKeys (sampleStub false) identity) := by
  obtain ⟨hresponse, hverify⟩ := sampleResponse_accepted false
  obtain ⟨hpairings, hstubs⟩ := role_separation (Crates.ofTable (sampleTable false)) .definite
  obtain ⟨identity, hparse, hroles⟩ := hpairings _ _ _ _ (sampleOffer_accepted false).1 hresponse hverify
  obtain ⟨owner, howner, hkept⟩ := hstubs _ _ (sampleStub_accepted false)
  exact ⟨⟨identity, hparse, hroles.mpr (by decide)⟩, owner, howner, hkept.mpr (by decide)⟩

/-- A compact signing key lets one point serve two roles, in messages and in stubs. -/
theorem compact_key_shares_point :
    (¬ ∀ offerBytes responseBytes offer response,
      SignedPairingOffer.decode .definite offerBytes = .ok offer →
      SignedPairingResponse.decode (Crates.ofTable (sampleTable true)) .definite responseBytes =
        .ok response →
      SignedPairingResponse.verify (Crates.ofTable (sampleTable true)) response offer = .ok () →
      ∃ identity : Point, RoleSeparated (Crates.ofTable (sampleTable true))
        (pairingKeys (C := Crates.ofTable (sampleTable true)) offer response identity)) ∧
    ¬ ∀ bytes stub,
      PublicIdentityStub.decode (Crates.ofTable (sampleTable true)) .definite bytes = .ok stub →
      ∃ identity : Point, RoleSeparated (Crates.ofTable (sampleTable true))
        (stubKeys (C := Crates.ofTable (sampleTable true)) stub identity) := by
  obtain ⟨hresponse, hverify⟩ := sampleResponse_accepted true
  have hsame : (Crates.ofTable (sampleTable true)).fromSec1Bytes (sampleSigningKey true) =
      (Crates.ofTable (sampleTable true)).fromSec1Bytes (sampleSelectionKey true) := by
    decide +kernel
  constructor
  · intro hclaim
    obtain ⟨_, hroles⟩ := hclaim _ _ _ _ (sampleOffer_accepted true).1 hresponse hverify
    have hdistinct := (List.pairwise_cons.mp hroles.distinct).2
    exact (List.pairwise_cons.mp hdistinct).1 _ List.mem_cons_self hsame
  · intro hclaim
    obtain ⟨_, hroles⟩ := hclaim _ _ (sampleStub_accepted true)
    have hdistinct := (List.pairwise_cons.mp hroles.distinct).2
    exact (List.pairwise_cons.mp hdistinct).1 _ List.mem_cons_self hsame

end Sample

end AgePluginPhone.Desktop
