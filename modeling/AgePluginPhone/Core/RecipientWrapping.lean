import AgePluginPhone.Core.StanzaSelection

/-!
# Wrapping a file key

The three stanzas by which the desktop wraps a file key, and their unwrapping with a software key.
What is wrapped for a recipient validates and is unwrapped by its identity, and a v2 stanza is
recognised by the pairing it was made for.
-/

namespace AgePluginPhone.Core

open Library Cbor

inductive UnwrapError
  | recipient (failure : RecipientError)
  | authentication
  deriving DecidableEq

variable (C : Crates)

def kdfInfo : List Byte := utf8 "age-plugin-phone/recipient/p256/v1"

def fileKeyKdfInfoV2 : List Byte := utf8 "age-plugin-phone/recipient/p256/v2/file-key"

def wrapNonce : Bytes 12 := Bytes.replicate 12 0

def associatedData (ephemeralPublic recipientPublic : EncodedPublicKey) : List Byte :=
  utf8 stanzaTag ++ [0] ++ ephemeralPublic.1 ++ recipientPublic.1

def fileKeyAssociatedDataV2 (ephemeralPublic phoneIdentityPublic : EncodedPublicKey) : List Byte :=
  utf8 stanzaTagV2 ++ [0] ++ ephemeralPublic.1 ++ phoneIdentityPublic.1

section Wrapping

def wrapFromSharedSecret (recipient : C.PublicKey) (ephemeralPublic : EncodedPublicKey)
    (shared : Bytes 32) (fileKey : Bytes 16) : TaggedStanza :=
  let recipientBytes := encodePublic C recipient
  let wrapKey := deriveKey C shared ephemeralPublic recipientBytes kdfInfo
  let body := C.encrypt wrapKey wrapNonce (associatedData ephemeralPublic recipientBytes) fileKey
  ⟨stanzaTag, [Base64.encode ephemeralPublic], body⟩

def wrapFileKey (recipient : C.PublicKey) (fileKey : Bytes 16) (ephemeral : C.SecretKey) :
    TaggedStanza :=
  wrapFromSharedSecret C recipient (encodePublic C (C.publicKey ephemeral))
    (C.diffieHellman ephemeral recipient) fileKey

/-- The body of a v2 stanza. -/
def fileKeyBodyV2 (recipient : PairedRecipient C) (ephemeralPublic : EncodedPublicKey)
    (phoneShared : Bytes 32) (fileKey : Bytes 16) : List Byte :=
  let phoneBytes := encodePublic C recipient.phoneIdentity
  let fileKeyKey := deriveKey C phoneShared ephemeralPublic phoneBytes fileKeyKdfInfoV2
  C.encrypt fileKeyKey wrapNonce (fileKeyAssociatedDataV2 ephemeralPublic phoneBytes) fileKey

def wrapV2FromSharedSecrets (recipient : PairedRecipient C) (ephemeralPublic : EncodedPublicKey)
    (phoneShared desktopShared : Bytes 32) (fileKey : Bytes 16) : TaggedStanza :=
  let phoneBytes := encodePublic C recipient.phoneIdentity
  let desktopBytes := encodePublic C recipient.desktopSelection
  let body := fileKeyBodyV2 C recipient ephemeralPublic phoneShared fileKey
  let selectionKey := deriveKey C desktopShared ephemeralPublic desktopBytes selectionKdfInfoV2
  let selection := C.encrypt selectionKey wrapNonce
    (selectionAssociatedData ephemeralPublic phoneBytes desktopBytes body) recipient.identityId
  ⟨stanzaTagV2, [Base64.encode ephemeralPublic, Base64.encode selection], body⟩

def wrapFileKeyV2 (recipient : PairedRecipient C) (fileKey : Bytes 16) (ephemeral : C.SecretKey) :
    TaggedStanza :=
  wrapV2FromSharedSecrets C recipient (encodePublic C (C.publicKey ephemeral))
    (C.diffieHellman ephemeral recipient.phoneIdentity)
    (C.diffieHellman ephemeral recipient.desktopSelection) fileKey

end Wrapping

namespace Tag

def kem : List Byte := utf8 "KEM" ++ [0, 0x10]

def suite : List Byte := utf8 "HPKE" ++ [0, 0x10, 0, 1, 0, 3]

def extract (suite salt label ikm : List Byte) : Bytes 32 :=
  C.hmacSha256 salt (utf8 "HPKE-v1" ++ suite ++ label ++ ikm)

/-- One block of output, of which the caller takes the length it asks for. -/
def expand (suite : List Byte) (prk : Bytes 32) (label info : List Byte) (len : ℕ) : Bytes 32 :=
  hkdfExpand C.hmacSha256 prk (bigEndian 2 len ++ utf8 "HPKE-v1" ++ suite ++ label ++ info)

def schedule (dh : Bytes 32) (enc : List Byte) (recipient : C.PublicKey) : Bytes 32 × Bytes 12 :=
  let eae := extract C kem [] (utf8 "eae_prk") dh
  let context := enc ++ (C.uncompressedPoint recipient).1
  let shared := expand C kem eae (utf8 "shared_secret") context 32
  let psk := extract C suite [] (utf8 "psk_id_hash") []
  let info := extract C suite [] (utf8 "info_hash") info
  let context := [0] ++ psk.1 ++ info.1
  let secret := extract C suite shared (utf8 "secret") []
  (expand C suite secret (utf8 "key") context 32,
    Bytes.leading 12 20 (expand C suite secret (utf8 "base_nonce") context 12))

def wrapWithEphemeral (recipient : C.PublicKey) (fileKey : Bytes 16) (ephemeral : C.SecretKey) :
    TaggedStanza :=
  let enc := C.uncompressedPoint (C.publicKey ephemeral)
  let secrets := schedule C (C.diffieHellman ephemeral recipient) enc recipient
  ⟨stanzaTag, [Base64.encode (selection C recipient enc), Base64.encode enc],
    C.encrypt secrets.1 secrets.2 [] fileKey⟩

def unwrap (identity : C.SecretKey) (stanza : TaggedStanza) : Except UnwrapError (Bytes 16) := do
  let enc ← (parse C stanza).mapError .recipient
  let recipient := C.publicKey identity
  let found ← («matches» C recipient stanza).mapError .recipient
  ensure (found = true) .authentication
  let secrets := schedule C (C.diffieHellman identity enc) (C.uncompressedPoint enc) recipient
  let plaintext ← okOr (C.decrypt secrets.1 secrets.2 [] stanza.body) .authentication
  okOr (if h : plaintext.length = 16 then some (⟨plaintext, h⟩ : Bytes 16) else none) .authentication

end Tag

section Unwrapping

def decryptWithSharedSecret (recipient : C.PublicKey) (stanza : ParsedStanza C) (shared : Bytes 32) :
    Except UnwrapError (Bytes 16) := do
  let recipientBytes := encodePublic C recipient
  let ephemeral := encodePublic C stanza.ephemeral
  let (info, aad) := match stanza.version with
    | .v1 => (kdfInfo, associatedData ephemeral recipientBytes)
    | .v2 => (fileKeyKdfInfoV2, fileKeyAssociatedDataV2 ephemeral recipientBytes)
  let wrapKey := deriveKey C shared ephemeral recipientBytes info
  let plaintext ← okOr (C.decrypt wrapKey wrapNonce aad stanza.body) .authentication
  okOr (if h : plaintext.length = 16 then some (⟨plaintext, h⟩ : Bytes 16) else none) .authentication

def unwrapFileKey (identity : C.SecretKey) (stanza : TaggedStanza) :
    Except UnwrapError (Bytes 16) :=
  if stanza.tag = Tag.stanzaTag then Tag.unwrap C identity stanza
  else do
    let parsed ← (ParsedStanza.parse C stanza).mapError .recipient
    decryptWithSharedSecret C (C.publicKey identity) parsed
      (C.diffieHellman identity parsed.ephemeral)

end Unwrapping

section Selectors

/-- A key agreement key that holds this secret. -/
structure P256KeyAgreement.Holds (key : P256KeyAgreement) (secret : C.SecretKey) :
    Prop where
  publicKey : key.publicKey = .ok (encodePublic C (C.publicKey secret))
  agree : ∀ peer, key.agree (encodePublic C peer) = .ok (C.diffieHellman secret peer)

/-- A software key, as the `p256` crate holds it. -/
def P256KeyAgreement.ofSigningKey (secret : C.SecretKey) : P256KeyAgreement where
  publicKey := .ok (encodePublic C (C.publicKey secret))
  agree peer := do
    let peer ← okOr (C.fromSec1Bytes peer) (.recipient .invalidPublicKey)
    return C.diffieHellman secret peer

/-- The call by which the identifier of a pairing is sealed in a stanza. -/
structure SelectorCall where
  key : Bytes 32
  aad : List Byte
  message : List Byte
  deriving DecidableEq

def SelectorCall.sealed (call : SelectorCall) : List Byte :=
  C.encrypt call.key wrapNonce call.aad call.message

def selectorCall (recipient : PairedRecipient C) (ephemeral : C.SecretKey) (body : List Byte) :
    SelectorCall :=
  let ephemeralPublic := encodePublic C (C.publicKey ephemeral)
  let desktopBytes := encodePublic C recipient.desktopSelection
  ⟨deriveKey C (C.diffieHellman ephemeral recipient.desktopSelection) ephemeralPublic desktopBytes
      selectionKdfInfoV2,
    selectionAssociatedData ephemeralPublic (encodePublic C recipient.phoneIdentity) desktopBytes
      body, recipient.identityId⟩

end Selectors

section Specifications

variable {C} {body : List Byte}

private theorem exactLength (fileKey : Bytes 16) :
    (if h : fileKey.1.length = 16 then some (⟨fileKey.1, h⟩ : Bytes 16) else none) = some fileKey :=
  dif_pos fileKey.2

private theorem mapUnwrapError_ok {α : Type} (a : α) (f : RecipientError → UnwrapError) :
    (Except.ok a : Except RecipientError α).mapError f = .ok a := rfl

private theorem decrypt_encrypt (key : Bytes 32) (nonce : Bytes 12) (aad msg : List Byte) :
    C.decrypt key nonce aad (C.encrypt key nonce aad msg) = some msg :=
  (C.decrypt_eq_some _ _ _ _ _).mpr rfl

private theorem encrypt_fileKey_length (key : Bytes 32) (nonce : Bytes 12) (aad : List Byte)
    (message : Bytes 16) : (C.encrypt key nonce aad message).length = stanzaBodyBytes := by
  rw [C.encrypt_length, message.2, stanzaBodyBytes]

theorem parse_v1 (ephemeral : C.PublicKey) (hbody : body.length = stanzaBodyBytes) :
    ParsedStanza.parse C ⟨stanzaTag, [Base64.encode (encodePublic C ephemeral)], body⟩ =
      .ok ⟨.v1, ephemeral, (encodePublic C ephemeral).1, none, body⟩ := by
  have hdecode := Base64.decode_eq_some.mpr (rfl : Base64.encode (encodePublic C ephemeral) = _)
  have hkey := fromPublicKeyBytes_eq_ok.mpr (rfl : (encodePublic C ephemeral).1 = _)
  simp [ParsedStanza.parse, stanzaVersion, ensure, hbody, hdecode, hkey, Except.mapError]

theorem parse_v2 (ephemeral : C.PublicKey) {selection : List Byte}
    (hbody : body.length = stanzaBodyBytes) (hselection : selection.length = stanzaBodyBytes) :
    ParsedStanza.parse C ⟨stanzaTagV2,
        [Base64.encode (encodePublic C ephemeral), Base64.encode selection], body⟩ =
      .ok ⟨.v2, ephemeral, (encodePublic C ephemeral).1, some selection, body⟩ := by
  have hne : stanzaTagV2 ≠ stanzaTag := by decide
  have hdecode := Base64.decode_eq_some.mpr (rfl : Base64.encode (encodePublic C ephemeral) = _)
  have hkey := fromPublicKeyBytes_eq_ok.mpr (rfl : (encodePublic C ephemeral).1 = _)
  have hselector := decodeBase64Exact_eq_ok.mpr ⟨hselection, (rfl : Base64.encode selection = _)⟩
  simp [ParsedStanza.parse, stanzaVersion, ensure, hne, hbody, hdecode, hkey, hselector,
    Except.mapError]

theorem Tag.parse_tagged (enc : C.PublicKey) {tag : List Byte} (htag : tag.length = 4)
    (hbody : body.length = 32) (hhead : (C.uncompressedPoint enc).1.head? = some 4) :
    Tag.parse C ⟨Tag.stanzaTag, [Base64.encode tag, Base64.encode (C.uncompressedPoint enc)], body⟩ =
      .ok enc := by
  have hname := decodeBase64Exact_eq_ok.mpr ⟨htag, (rfl : Base64.encode tag = _)⟩
  have hpoint := decodeBase64Exact_eq_ok.mpr
    ⟨(C.uncompressedPoint enc).2, (rfl : Base64.encode (C.uncompressedPoint enc).1 = _)⟩
  simp [Tag.parse, ensure, hname, hpoint, hbody, hhead, C.fromSec1Bytes_uncompressed]

variable (fileKey : Bytes 16) (ephemeral identity : C.SecretKey)

section V1

variable (recipient : C.PublicKey)

theorem validateStanza_wrapFileKey :
    validateStanza C (wrapFileKey C recipient fileKey ephemeral) = .ok () :=
  validateStanza_eq_ok.mpr (.v1 (C.publicKey ephemeral) (encrypt_fileKey_length _ _ _ fileKey))

/-- The identity unwraps the file key of a v1 stanza. -/
theorem unwrapFileKey_wrapFileKey :
    unwrapFileKey C identity (wrapFileKey C (C.publicKey identity) fileKey ephemeral) =
      .ok fileKey := by
  have hne : stanzaTag ≠ Tag.stanzaTag := by decide
  rw [unwrapFileKey, wrapFileKey, wrapFromSharedSecret, if_neg hne,
    parse_v1 _ (encrypt_fileKey_length _ _ _ fileKey), mapUnwrapError_ok, ok_bind,
    decryptWithSharedSecret, C.diffieHellman_comm identity ephemeral]
  simp only [decrypt_encrypt, okOr_some, ok_bind, exactLength]

end V1

section V2

variable (recipient : PairedRecipient C)

theorem validateStanza_wrapFileKeyV2 :
    validateStanza C (wrapFileKeyV2 C recipient fileKey ephemeral) = .ok () :=
  validateStanza_eq_ok.mpr (.v2 (C.publicKey ephemeral) (encrypt_fileKey_length _ _ _ fileKey)
    (encrypt_fileKey_length _ _ _ recipient.identityId))

private theorem parse_wrapFileKeyV2 :
    ParsedStanza.parse C (wrapFileKeyV2 C recipient fileKey ephemeral) =
      .ok ⟨.v2, C.publicKey ephemeral, (encodePublic C (C.publicKey ephemeral)).1,
        some ((selectorCall C recipient ephemeral
          (wrapFileKeyV2 C recipient fileKey ephemeral).body).sealed C),
        (wrapFileKeyV2 C recipient fileKey ephemeral).body⟩ :=
  parse_v2 _ (encrypt_fileKey_length _ _ _ fileKey)
    (encrypt_fileKey_length _ _ _ recipient.identityId)

/-- The phone identity of a pairing unwraps the file key of a v2 stanza. -/
theorem unwrapFileKey_wrapFileKeyV2 (h : C.publicKey identity = recipient.phoneIdentity) :
    unwrapFileKey C identity (wrapFileKeyV2 C recipient fileKey ephemeral) = .ok fileKey := by
  have hne : stanzaTagV2 ≠ Tag.stanzaTag := by decide
  rw [unwrapFileKey, if_neg (show (wrapFileKeyV2 C recipient fileKey ephemeral).tag ≠ _ from hne),
    parse_wrapFileKeyV2, mapUnwrapError_ok, ok_bind, decryptWithSharedSecret,
    C.diffieHellman_comm identity ephemeral, h]
  simp only [wrapFileKeyV2, wrapV2FromSharedSecrets, fileKeyBodyV2, decrypt_encrypt, okOr_some,
    ok_bind, exactLength]

end V2

section Tagged

variable (recipient : C.PublicKey)

private theorem selection_length (enc : List Byte) : (Tag.selection C recipient enc).length = 4 := by
  simp [Tag.selection, (C.hmacSha256 _ _).2]

private theorem parse_wrapWithEphemeral
    (hhead : ∀ key, (C.uncompressedPoint key).1.head? = some 4) :
    Tag.parse C (Tag.wrapWithEphemeral C recipient fileKey ephemeral) =
      .ok (C.publicKey ephemeral) :=
  Tag.parse_tagged _ (selection_length recipient _) (encrypt_fileKey_length _ _ _ fileKey) (hhead _)

theorem validateStanza_wrapWithEphemeral
    (hhead : ∀ key, (C.uncompressedPoint key).1.head? = some 4) :
    validateStanza C (Tag.wrapWithEphemeral C recipient fileKey ephemeral) = .ok () :=
  validateStanza_eq_ok.mpr (.tagged (C.publicKey ephemeral) (encrypt_fileKey_length _ _ _ fileKey)
    (selection_length recipient _) (hhead _))

/-- The identity unwraps the file key of a native tagged stanza. -/
theorem unwrapFileKey_wrapWithEphemeral
    (hhead : ∀ key, (C.uncompressedPoint key).1.head? = some 4) :
    unwrapFileKey C identity (Tag.wrapWithEphemeral C (C.publicKey identity) fileKey ephemeral) =
      .ok fileKey := by
  have hparse := parse_wrapWithEphemeral fileKey ephemeral (C.publicKey identity) hhead
  have htag : (Tag.wrapWithEphemeral C (C.publicKey identity) fileKey ephemeral).tag =
      Tag.stanzaTag := rfl
  rw [unwrapFileKey, if_pos htag, Tag.unwrap, hparse, mapUnwrapError_ok, ok_bind]
  have hfound : Tag.matches C (C.publicKey identity)
      (Tag.wrapWithEphemeral C (C.publicKey identity) fileKey ephemeral) = .ok true := by
    rw [Tag.matches, hparse, ok_bind, pure_eq_ok]
    simp [Tag.wrapWithEphemeral]
  simp only [hfound, mapUnwrapError_ok, ok_bind]
  rw [ensure_true _ True.intro, ok_bind]
  simp only [Tag.wrapWithEphemeral, C.diffieHellman_comm identity ephemeral, decrypt_encrypt,
    okOr_some, ok_bind, exactLength]

end Tagged

section Selection

/-- The associated data of a selector names both keys of its pairing. -/
private theorem selectionAssociatedData_injective {ephemeralPublic phone desktop phone' desktop' :
    EncodedPublicKey} (h : selectionAssociatedData ephemeralPublic phone desktop body =
      selectionAssociatedData ephemeralPublic phone' desktop' body) :
    phone = phone' ∧ desktop = desktop' := by
  simp only [selectionAssociatedData, List.append_assoc, List.append_cancel_left_eq] at h
  obtain ⟨hphone, hrest⟩ := List.append_inj h (by rw [phone.2, phone'.2])
  obtain ⟨hdesktop, -⟩ := List.append_inj hrest (by rw [desktop.2, desktop'.2])
  exact ⟨Subtype.ext hphone, Subtype.ext hdesktop⟩

theorem selectorCall_injective :
    Function.Injective fun recipient => selectorCall C recipient ephemeral body := by
  intro a b h
  simp only [selectorCall, SelectorCall.mk.injEq] at h
  obtain ⟨-, haad, hid⟩ := h
  obtain ⟨hphone, hdesktop⟩ := selectionAssociatedData_injective haad
  cases a
  cases b
  simp only [PairedRecipient.mk.injEq]
  exact ⟨encodePublic_injective hphone, encodePublic_injective hdesktop, Subtype.ext hid⟩

/-- The private test of a desktop compares the selector with the one its pairing would have. -/
private theorem matches_wrapFileKeyV2 {recipient other : PairedRecipient C} {key : P256KeyAgreement}
    {secret : C.SecretKey} (hsecret : C.publicKey secret = other.desktopSelection)
    (hkey : key.Holds C secret) {found : Bool}
    (hfound : found = true ↔ (selectorCall C recipient ephemeral
        (wrapFileKeyV2 C recipient fileKey ephemeral).body).sealed C =
      (selectorCall C other ephemeral (wrapFileKeyV2 C recipient fileKey ephemeral).body).sealed C) :
    matchesStanzaV2 C other key (wrapFileKeyV2 C recipient fileKey ephemeral) = .ok found := by
  have hshared : C.diffieHellman secret (C.publicKey ephemeral) =
      C.diffieHellman ephemeral other.desktopSelection := by
    rw [C.diffieHellman_comm, hsecret]
  have hversion : ¬ StanzaVersion.v2 ≠ .v2 := fun h => h rfl
  rw [matchesStanzaV2, hkey.publicKey, hsecret, ok_bind, ensure_true _ rfl, ok_bind,
    parse_wrapFileKeyV2]
  simp only [Except.mapError, ok_bind, if_neg hversion, hkey.agree, hshared, pure_eq_ok,
    Except.ok.injEq, openSelector, Option.bind_some]
  rw [Bool.eq_iff_iff, decide_eq_true_iff, C.decrypt_eq_some, hfound]
  rfl

/-- Distinct selectors are sealed distinctly: authenticated encryption binds its key, its
associated data and its message. -/
def SealsApart (C : Crates) (calls : Set SelectorCall) : Prop :=
  Set.InjOn (SelectorCall.sealed C) calls

theorem P256KeyAgreement.ofSigningKey_holds (secret : C.SecretKey) :
    (P256KeyAgreement.ofSigningKey C secret).Holds C secret where
  publicKey := rfl
  agree peer := by
    change okOr (C.fromSec1Bytes (encodePublic C peer)) _ >>= _ = _
    rw [encodePublic, C.fromSec1Bytes_compressed]
    rfl

section Pairings

variable {recipient other : PairedRecipient C} {key : P256KeyAgreement} {secret : C.SecretKey}

/-- A v2 stanza is recognised by the desktop of its own pairing. -/
theorem matches_own_pairing (hsecret : C.publicKey secret = recipient.desktopSelection)
    (hkey : key.Holds C secret) :
    matchesStanzaV2 C recipient key (wrapFileKeyV2 C recipient fileKey ephemeral) = .ok true :=
  matches_wrapFileKeyV2 fileKey ephemeral hsecret hkey (by simp)

/-- A v2 stanza is recognised by the desktop of no other pairing. -/
theorem matches_no_other (hsecret : C.publicKey secret = other.desktopSelection)
    (hkey : key.Holds C secret) {calls : Set SelectorCall} (hapart : SealsApart C calls)
    (hcalls : ∀ r ∈ [recipient, other],
      selectorCall C r ephemeral (wrapFileKeyV2 C recipient fileKey ephemeral).body ∈ calls)
    (hother : other ≠ recipient) :
    matchesStanzaV2 C other key (wrapFileKeyV2 C recipient fileKey ephemeral) = .ok false := by
  apply matches_wrapFileKeyV2 fileKey ephemeral hsecret hkey
  simp only [Bool.false_eq_true, false_iff]
  intro hsealed
  have hcall := hapart (hcalls recipient (by simp)) (hcalls other (by simp)) hsealed
  exact hother (selectorCall_injective ephemeral hcall).symm

end Pairings

end Selection

end Specifications

end AgePluginPhone.Core
