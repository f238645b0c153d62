import AgePluginPhone.Core.Recipient
import AgePluginPhone.Library.Hkdf

/-!
# Selecting a stanza

The public prefilter of a native tagged stanza, and the private test by which one paired desktop
recognises a v2 stanza of its pairing.
-/

namespace AgePluginPhone.Core

open Library

/-- Why a private test gives no answer. -/
inductive MatchError
  | recipient (failure : RecipientError)
  | wrongSelectionKey
  | keyAgreement
  deriving DecidableEq

/-- A P-256 key agreement key in software or hardware. -/
structure P256KeyAgreement where
  publicKey : Except MatchError EncodedPublicKey
  agree : EncodedPublicKey → Except MatchError (Bytes 32)

variable (C : Crates)

structure PairedRecipient where
  phoneIdentity : C.PublicKey
  desktopSelection : C.PublicKey
  identityId : Id

def PairedRecipient.fromPublicFields (phoneIdentity desktopSelection : List Byte) (identityId : Id) :
    Except RecipientError (PairedRecipient C) := do
  let phoneIdentity ← Recipient.fromPublicKeyBytes C phoneIdentity
  let desktopSelection ← Recipient.fromPublicKeyBytes C desktopSelection
  return ⟨phoneIdentity, desktopSelection, identityId⟩

/-- The payload of a v2 recipient. -/
def PairedRecipient.pluginBytes (recipient : PairedRecipient C) : List Byte :=
  2 :: ((encodePublic C recipient.phoneIdentity).1 ++
    ((encodePublic C recipient.desktopSelection).1 ++ recipient.identityId.1))

def PairedRecipient.toString (recipient : PairedRecipient C) : String :=
  Bech32.encode recipientHrp (Bech32.wordsOf (recipient.pluginBytes C))

namespace Tag

def hrp : String := "age1tag"

def recipient (key : C.PublicKey) : String :=
  Bech32.encode hrp (Bech32.wordsOf (encodePublic C key).1)

def info : List Byte := utf8 "age-encryption.org/p256tag"

/-- The four bytes by which a tagged stanza names a recipient. -/
def selection (recipient : C.PublicKey) (enc : List Byte) : List Byte :=
  let hash := C.sha256 (encodePublic C recipient)
  (C.hmacSha256 info (enc ++ hash.1.take 4)).1.take 4

def «matches» (recipient : C.PublicKey) (stanza : TaggedStanza) : Except RecipientError Bool := do
  let enc ← parse C stanza
  return stanza.args.head? = some (Base64.encode (selection C recipient (C.uncompressedPoint enc)))

end Tag

section Private

def selectionKdfInfoV2 : List Byte := utf8 "age-plugin-phone/recipient/p256/v2/selection"

def deriveKey (shared : Bytes 32) (ephemeralPublic recipientPublic : EncodedPublicKey)
    (info : List Byte) : Bytes 32 :=
  hkdf C.hmacSha256 (ephemeralPublic.1 ++ recipientPublic.1) shared info

def selectionAssociatedData (ephemeralPublic phoneIdentityPublic desktopSelectionPublic :
    EncodedPublicKey) (body : List Byte) : List Byte :=
  utf8 stanzaTagV2 ++ [0] ++ utf8 "selection" ++ [0] ++ ephemeralPublic.1 ++ phoneIdentityPublic.1 ++
    desktopSelectionPublic.1 ++ body

/-- The identity a selector names under a derived key, if it opens. -/
def openSelector (selectionKey : Bytes 32) (aad : List Byte) (selection : Option (List Byte)) :
    Option (List Byte) :=
  selection.bind fun selection => C.decrypt selectionKey (Bytes.replicate 12 0) aad selection

/-- Does a v2 stanza belong to this pairing? -/
def matchesStanzaV2 (recipient : PairedRecipient C) (desktopSelectionPrivate : P256KeyAgreement)
    (stanza : TaggedStanza) : Except MatchError Bool := do
  let key ← desktopSelectionPrivate.publicKey
  ensure (key = encodePublic C recipient.desktopSelection) .wrongSelectionKey
  let parsed ← (ParsedStanza.parse C stanza).mapError .recipient
  if parsed.version ≠ .v2 then return false
  let ephemeral := encodePublic C parsed.ephemeral
  let shared ← desktopSelectionPrivate.agree ephemeral
  let desktop := encodePublic C recipient.desktopSelection
  let selectionKey := deriveKey C shared ephemeral desktop selectionKdfInfoV2
  let aad := selectionAssociatedData ephemeral (encodePublic C recipient.phoneIdentity) desktop parsed.body
  return openSelector C selectionKey aad parsed.selection = some recipient.identityId.1

end Private

section Specifications

variable {C}

theorem fromPublicFields_eq_ok {phoneIdentity desktopSelection : List Byte} {identityId : Id}
    {recipient : PairedRecipient C} :
    PairedRecipient.fromPublicFields C phoneIdentity desktopSelection identityId = .ok recipient ↔
      phoneIdentity = (encodePublic C recipient.phoneIdentity).1 ∧
        desktopSelection = (encodePublic C recipient.desktopSelection).1 ∧
        identityId = recipient.identityId := by
  simp only [PairedRecipient.fromPublicFields, bind_eq_ok, fromPublicKeyBytes_eq_ok, pure_eq_ok,
    Except.ok.injEq]
  constructor
  · intro hparts
    obtain ⟨phone, hphone, selection, hselection, rfl⟩ := hparts
    exact ⟨hphone, hselection, rfl⟩
  · intro hparts
    obtain ⟨hphone, hselection, rfl⟩ := hparts
    exact ⟨_, hphone, _, hselection, rfl⟩

/-- The prefilter answers for every stanza of valid public structure. -/
theorem tag_matches_total {stanza : TaggedStanza} (recipient : C.PublicKey)
    (hvalid : validateStanza C stanza = .ok ()) (htag : stanza.tag = Tag.stanzaTag) :
    ∃ found, Tag.matches C recipient stanza = .ok found := by
  rw [validateStanza, if_pos htag] at hvalid
  cases hparse : Tag.parse C stanza with
  | error failure =>
      rw [hparse] at hvalid
      cases hvalid
  | ok enc => exact ⟨_, by rw [Tag.matches, hparse, ok_bind, pure_eq_ok]⟩

/-- A desktop key that is not the recipient's gives no answer for any stanza. -/
theorem matchesStanzaV2_wrong_key {recipient : PairedRecipient C} {key : P256KeyAgreement}
    (h : key.publicKey ≠ .ok (encodePublic C recipient.desktopSelection)) (stanza : TaggedStanza) :
    ∃ failure, matchesStanzaV2 C recipient key stanza = .error failure := by
  cases hkey : key.publicKey with
  | error failure => exact ⟨failure, by rw [matchesStanzaV2, hkey, error_bind]⟩
  | ok found =>
      have hne : found ≠ encodePublic C recipient.desktopSelection := by
        intro heq
        exact h (by rw [hkey, heq])
      exact ⟨.wrongSelectionKey, by rw [matchesStanzaV2, hkey, ok_bind, ensure, if_neg hne, error_bind]⟩

theorem publicKey_of_matches {recipient : PairedRecipient C} {key : P256KeyAgreement}
    {stanza : TaggedStanza} {found : Bool} (h : matchesStanzaV2 C recipient key stanza = .ok found) :
    key.publicKey = .ok (encodePublic C recipient.desktopSelection) := by
  by_contra hne
  obtain ⟨failure, hfailure⟩ := matchesStanzaV2_wrong_key hne stanza
  rw [h] at hfailure
  cases hfailure

/-- A key that is the recipient's and never fails to agree answers for every valid stanza. -/
theorem matchesStanzaV2_total {recipient : PairedRecipient C} {key : P256KeyAgreement}
    {stanza : TaggedStanza} (hkey : key.publicKey = .ok (encodePublic C recipient.desktopSelection))
    (hagree : ∀ peer, ∃ shared, key.agree (encodePublic C peer) = .ok shared)
    (hvalid : validateStanza C stanza = .ok ()) (htag : stanza.tag ≠ Tag.stanzaTag) :
    ∃ found, matchesStanzaV2 C recipient key stanza = .ok found := by
  rw [validateStanza, if_neg htag] at hvalid
  cases hparse : ParsedStanza.parse C stanza with
  | error failure =>
      rw [hparse] at hvalid
      cases hvalid
  | ok parsed =>
      obtain ⟨shared, hshared⟩ := hagree parsed.ephemeral
      by_cases hversion : parsed.version = .v2
      · exact ⟨_, by simp [matchesStanzaV2, hkey, hparse, hversion, hshared, Except.mapError, ensure]; rfl⟩
      · exact ⟨false, by simp [matchesStanzaV2, hkey, hparse, hversion, Except.mapError, ensure]⟩

end Specifications

end AgePluginPhone.Core
