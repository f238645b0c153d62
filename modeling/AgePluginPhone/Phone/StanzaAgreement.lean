import AgePluginPhone.Android.TaggedRecipientCrypto
import AgePluginPhone.Core.RecipientWrapping
import AgePluginPhone.Core.TableCrates
import AgePluginPhone.Ios.StanzaOpening

/-!
# Agreement on recipient stanzas

The desktop and the two phones accept the same stanzas, and what the desktop wraps the phones
open.
-/

namespace AgePluginPhone.Phone.Stanza

open Library P256 AgePluginPhone.Core

/-- The keys of the `p256` crate are the points of the curve. -/
structure CratePoints (C : Crates) : Prop where
  onCurve : ∀ key, ∃ point, OnCurve point ∧ C.uncompressedPoint key = encodeUncompressed point
  isKey : ∀ point, OnCurve point → ∃ key, C.uncompressedPoint key = encodeUncompressed point

/-- The keys of CryptoKit are the points of the curve. -/
structure KitPoints (K : Ios.CryptoKit) : Prop where
  onCurve : ∀ key, ∃ point, OnCurve point ∧ K.x963Representation key = encodeUncompressed point
  isKey : ∀ point, OnCurve point → ∃ key, K.x963Representation key = encodeUncompressed point

/-- The three platforms compute the same hash, HMAC and authenticated encryption. -/
structure SameFunctions (C : Crates) (K : Ios.CryptoKit) (P : Ios.StanzaOpening.Ciphers)
    (J : Android.TaggedRecipientCrypto.Jca) : Prop where
  androidHash : J.sha256 = C.sha256
  androidHmac : J.hmacSha256 = C.hmacSha256
  androidOpen : J.doFinal = C.decrypt
  iosHash : K.sha256 = C.sha256
  iosHmac : P.hmacSha256 = C.hmacSha256
  iosOpen : ∀ key nonce aad ciphertext tag, tag.length = 16 →
    P.openBox key nonce aad ciphertext tag = C.decrypt key nonce aad (ciphertext ++ tag)
  /-- HMAC fills its key with zeros. -/
  emptyKey : ∀ message, C.hmacSha256 (List.replicate 32 0) message = C.hmacSha256 [] message

variable {C : Crates} {K : Ios.CryptoKit} {P : Ios.StanzaOpening.Ciphers}
  {J : Android.TaggedRecipientCrypto.Jca}

section Points

theorem head_uncompressed (hC : CratePoints C) (key : C.PublicKey) :
    (C.uncompressedPoint key).1.head? = some 4 := by
  obtain ⟨point, -, hpoint⟩ := hC.onCurve key
  rw [hpoint]
  rfl

theorem encodePublic_of_point {key : C.PublicKey} {point : Affine}
    (h : C.uncompressedPoint key = encodeUncompressed point) :
    encodePublic C key = encodeCompressed point := by
  rw [encodePublic, h, compress_encodeUncompressed]

theorem compressed_of_point {key : K.PublicKey} {point : Affine}
    (h : K.x963Representation key = encodeUncompressed point) :
    Ios.compressed K key = encodeCompressed point := by
  rw [← compress_encodeUncompressed, ← h]
  rfl

theorem exists_android (J : Android.TaggedRecipientCrypto.Jca) {point : Affine} (h : OnCurve point) :
    ∃ key, J.w key = point := by
  obtain ⟨key, hkey⟩ := Option.isSome_iff_exists.mp (J.generatePublic_isSome point h)
  exact ⟨key, J.w_generatePublic point key hkey⟩

end Points

section Acceptance

/-- The public structure of a stanza, by the points it carries. -/
inductive WellFormed : String → List String → List Byte → Prop
  | v1 {body} (point : Affine) (hpoint : OnCurve point) (hbody : body.length = 32) :
      WellFormed "phone-p256-v1" [Base64.encode (encodeCompressed point)] body
  | v2 {body selection} (point : Affine) (hpoint : OnCurve point) (hbody : body.length = 32)
      (hselection : selection.length = 32) :
      WellFormed "phone-p256-v2"
        [Base64.encode (encodeCompressed point), Base64.encode selection] body
  | tagged {body tag} (point : Affine) (hpoint : OnCurve point) (hbody : body.length = 32)
      (htag : tag.length = 4) :
      WellFormed "p256tag" [Base64.encode tag, Base64.encode (encodeUncompressed point)] body

variable {tag : String} {args : List String} {body : List Byte}

theorem desktop_accepts (hC : CratePoints C) :
    validateStanza C ⟨tag, args, body⟩ = .ok () ↔ WellFormed tag args body := by
  rw [validateStanza_eq_ok]
  constructor
  · intro hconforming
    cases hconforming with
    | v1 ephemeral hbody =>
        obtain ⟨point, hpoint, hkey⟩ := hC.onCurve ephemeral
        rw [encodePublic_of_point hkey]
        exact .v1 point hpoint hbody
    | v2 ephemeral hbody hselection =>
        obtain ⟨point, hpoint, hkey⟩ := hC.onCurve ephemeral
        rw [encodePublic_of_point hkey]
        exact .v2 point hpoint hbody hselection
    | tagged enc hbody htag =>
        obtain ⟨point, hpoint, hkey⟩ := hC.onCurve enc
        rw [hkey]
        exact .tagged point hpoint hbody htag
  · intro hwell
    cases hwell with
    | v1 point hpoint hbody =>
        obtain ⟨key, hkey⟩ := hC.isKey point hpoint
        rw [← encodePublic_of_point hkey]
        exact .v1 key hbody
    | v2 point hpoint hbody hselection =>
        obtain ⟨key, hkey⟩ := hC.isKey point hpoint
        rw [← encodePublic_of_point hkey]
        exact .v2 key hbody hselection
    | tagged point hpoint hbody htag =>
        obtain ⟨key, hkey⟩ := hC.isKey point hpoint
        rw [← hkey]
        exact .tagged key hbody htag (head_uncompressed hC key)

theorem android_accepts : (∃ parsed, Android.TaggedRecipientCrypto.parse J ⟨tag, args, body⟩ =
    .ok parsed) ↔ WellFormed tag args body := by
  constructor
  · intro hparses
    obtain ⟨parsed, hparse⟩ := hparses
    cases Android.TaggedRecipientCrypto.parses_of_parse hparse with
    | v1 key hbody => exact .v1 (J.w key) (J.w_onCurve key) hbody
    | v2 key hbody hselection => exact .v2 (J.w key) (J.w_onCurve key) hbody hselection
    | tagged key hbody htag => exact .tagged (J.w key) (J.w_onCurve key) hbody htag
  · intro hwell
    cases hwell with
    | v1 point hpoint hbody =>
        obtain ⟨key, rfl⟩ := exists_android J hpoint
        exact ⟨_, Android.TaggedRecipientCrypto.parse_of_parses (.v1 key hbody)⟩
    | v2 point hpoint hbody hselection =>
        obtain ⟨key, rfl⟩ := exists_android J hpoint
        exact ⟨_, Android.TaggedRecipientCrypto.parse_of_parses (.v2 key hbody hselection)⟩
    | tagged point hpoint hbody htag =>
        obtain ⟨key, rfl⟩ := exists_android J hpoint
        exact ⟨_, Android.TaggedRecipientCrypto.parse_of_parses (.tagged key hbody htag)⟩

theorem ios_accepts (hK : KitPoints K) : (∃ parsed, Ios.StanzaOpening.parse K ⟨tag, args, body⟩ =
    .ok parsed) ↔ WellFormed tag args body := by
  constructor
  · intro hparses
    obtain ⟨parsed, hparse⟩ := hparses
    cases Ios.StanzaOpening.parses_of_parse hparse with
    | v1 key hbody =>
        obtain ⟨point, hpoint, hkey⟩ := hK.onCurve key
        rw [compressed_of_point hkey]
        exact .v1 point hpoint hbody
    | v2 key hbody hselection =>
        obtain ⟨point, hpoint, hkey⟩ := hK.onCurve key
        rw [compressed_of_point hkey]
        exact .v2 point hpoint hbody hselection
    | tagged key hbody htag =>
        obtain ⟨point, hpoint, hkey⟩ := hK.onCurve key
        rw [hkey]
        exact .tagged point hpoint hbody htag
  · intro hwell
    cases hwell with
    | v1 point hpoint hbody =>
        obtain ⟨key, hkey⟩ := hK.isKey point hpoint
        rw [← compressed_of_point hkey]
        exact ⟨_, Ios.StanzaOpening.parse_of_parses (.v1 key hbody)⟩
    | v2 point hpoint hbody hselection =>
        obtain ⟨key, hkey⟩ := hK.isKey point hpoint
        rw [← compressed_of_point hkey]
        exact ⟨_, Ios.StanzaOpening.parse_of_parses (.v2 key hbody hselection)⟩
    | tagged point hpoint hbody htag =>
        obtain ⟨key, hkey⟩ := hK.isKey point hpoint
        rw [← hkey]
        exact ⟨_, Ios.StanzaOpening.parse_of_parses (.tagged key hbody htag (by rw [hkey]; rfl))⟩

end Acceptance

section Functions

private theorem bigEndian_byte (n : Byte) : Cbor.bigEndian 2 n.val = [0, n] := by
  revert n
  decide +kernel

variable (hsame : SameFunctions C K P J)

include hsame

private theorem android_hmac (key input : List Byte) :
    Android.TaggedRecipientCrypto.hmac J key input = C.hmacSha256 key input := by
  rw [Android.TaggedRecipientCrypto.hmac, hsame.androidHmac]
  cases key with
  | nil => exact hsame.emptyKey input
  | cons b key => rfl

private theorem android_extract (suite salt label input : List Byte) :
    Android.TaggedRecipientCrypto.hpkeExtract J suite salt label input =
      Tag.extract C suite salt label input :=
  android_hmac hsame salt _

private theorem android_expand (suite : List Byte) (key : Bytes 32) (label info : List Byte)
    (size : Byte) : Android.TaggedRecipientCrypto.hpkeExpand J suite key label info size =
      Tag.expand C suite key label info size.val := by
  rw [Android.TaggedRecipientCrypto.hpkeExpand, android_hmac hsame, Tag.expand, hkdfExpand,
    bigEndian_byte]

private theorem android_deriveKey (shared : Bytes 32) (ephemeralPublic recipientPublic : EncodedPublicKey)
    (info : List Byte) : Android.TaggedRecipientCrypto.deriveKey J shared ephemeralPublic
      recipientPublic info = deriveKey C shared ephemeralPublic recipientPublic info := by
  rw [Android.TaggedRecipientCrypto.deriveKey, hsame.androidHmac]
  rfl

private theorem ios_extract (suite salt label input : List Byte) :
    Ios.StanzaOpening.P256Tag.extract P suite salt label input =
      Tag.extract C suite salt label input := by
  rw [Ios.StanzaOpening.P256Tag.extract, hsame.iosHmac]
  rfl

private theorem ios_expand (suite : List Byte) (key : Bytes 32) (label info : List Byte)
    (count : Byte) : Ios.StanzaOpening.P256Tag.expand P suite key label info count =
      Tag.expand C suite key label info count.val := by
  rw [Ios.StanzaOpening.P256Tag.expand, hsame.iosHmac, Tag.expand, hkdfExpand, bigEndian_byte]

/-- A box of a body that ends in a tag is the body itself. -/
private theorem ios_openBox {key : Bytes 32} {nonce : Bytes 12} {aad body : List Byte}
    (h : body.length = 32) : P.openBox key nonce aad (body.take 16) (body.drop (body.length - 16)) =
      C.decrypt key nonce aad body := by
  rw [hsame.iosOpen _ _ _ _ _ (by rw [List.length_drop]; omega), h, List.take_append_drop]

end Functions

section Opening

def androidStanza (stanza : TaggedStanza) : Android.TaggedRecipientCrypto.Stanza :=
  ⟨stanza.tag, stanza.args, stanza.body⟩

def iosStanza (stanza : TaggedStanza) : Ios.StanzaOpening.Stanza :=
  ⟨stanza.tag, stanza.args, stanza.body⟩

variable (C K P J) in
/-- What an identity unwraps on the desktop, and with the same key on either phone, whose hardware
agrees the same secrets. -/
structure OpensAs (identity : C.SecretKey) (stanza : TaggedStanza) (fileKey : Bytes 16) : Prop where
  desktop : unwrapFileKey C identity stanza = .ok fileKey
  android : ∀ (identityPublic : J.PublicKey) (agree : J.PublicKey → List Byte),
    C.uncompressedPoint (C.publicKey identity) = encodeUncompressed (J.w identityPublic) →
    (∀ ephemeral peer, C.uncompressedPoint peer = encodeUncompressed (J.w ephemeral) →
      agree ephemeral = C.diffieHellman identity peer) →
    Android.TaggedRecipientCrypto.unwrapWithKeyStore J agree identityPublic (androidStanza stanza) =
      .ok fileKey
  ios : ∀ (identityPublic : K.PublicKey)
      (agree : K.PublicKey → Except Ios.StanzaOpening.OpeningError (List Byte)),
    K.x963Representation identityPublic = C.uncompressedPoint (C.publicKey identity) →
    (∀ ephemeral peer, K.x963Representation ephemeral = C.uncompressedPoint peer →
      agree ephemeral = .ok (C.diffieHellman identity peer)) →
    Ios.StanzaOpening.unwrap K P (iosStanza stanza) identityPublic agree = .ok fileKey

section Bodies

variable (fileKey : Bytes 16)

private theorem body_length (key : Bytes 32) (nonce : Bytes 12) (aad : List Byte) :
    (C.encrypt key nonce aad fileKey).length = 32 := by
  rw [C.encrypt_length, fileKey.2]

private theorem decrypt_body (key : Bytes 32) (nonce : Bytes 12) (aad : List Byte) :
    C.decrypt key nonce aad (C.encrypt key nonce aad fileKey) = some fileKey.1 :=
  (C.decrypt_eq_some _ _ _ _ _).mpr rfl

variable (C) in
/-- The body of a stanza of either version. -/
def phoneBody (version : ℕ) (shared : Bytes 32) (ephemeral recipient : EncodedPublicKey) : List Byte :=
  C.encrypt (deriveKey C shared ephemeral recipient (if version = 2 then fileKeyKdfInfoV2 else kdfInfo))
    wrapNonce (if version = 2 then fileKeyAssociatedDataV2 ephemeral recipient
      else associatedData ephemeral recipient) fileKey

end Bodies

section Android

variable {identityPublic : J.PublicKey} {agree : J.PublicKey → List Byte}
  {stanza : Android.TaggedRecipientCrypto.Stanza} {parsed : Android.TaggedRecipientCrypto.ParsedStanza J}

private theorem android_unwrap (hparse : Android.TaggedRecipientCrypto.parse J stanza = .ok parsed)
    (hmatching : Android.TaggedRecipientCrypto.requireMatchingTag J identityPublic stanza = .ok ()) :
    Android.TaggedRecipientCrypto.unwrapWithKeyStore J agree identityPublic stanza =
      Android.TaggedRecipientCrypto.open J parsed.version (agree parsed.ephemeralPublic)
        parsed.ephemeralBytes (encodeCompressed (J.w identityPublic)) parsed.body := by
  simp only [Android.TaggedRecipientCrypto.unwrapWithKeyStore,
    Android.TaggedRecipientCrypto.unwrapWithSharedSecret, hparse, hmatching, ok_bind,
    Android.TaggedRecipientCrypto.encodeCompressed_eq]

private theorem android_open (hsame : SameFunctions C K P J) (fileKey : Bytes 16) {version : ℕ}
    (hversion : version ≠ 3) (shared : Bytes 32) (ephemeral recipient : EncodedPublicKey) :
    Android.TaggedRecipientCrypto.open J version shared ephemeral recipient
      (phoneBody C fileKey version shared ephemeral recipient) = .ok fileKey := by
  have hinfo : (if version = 2 then Android.TaggedRecipientCrypto.fileKeyKdfInfoV2
      else Android.TaggedRecipientCrypto.kdfInfo) =
        if version = 2 then fileKeyKdfInfoV2 else kdfInfo := rfl
  have haad : Android.TaggedRecipientCrypto.associatedData version ephemeral recipient =
      if version = 2 then fileKeyAssociatedDataV2 ephemeral recipient
        else associatedData ephemeral recipient := by
    rw [Android.TaggedRecipientCrypto.associatedData]
    split_ifs <;> rfl
  rw [Android.TaggedRecipientCrypto.open, if_neg hversion]
  simp only [hinfo, haad, android_deriveKey hsame, hsame.androidOpen]
  have hlength : fileKey.1.length = Android.TaggedRecipientCrypto.fileKeyBytes := fileKey.2
  rw [phoneBody, show Android.TaggedRecipientCrypto.zeroNonce = wrapNonce from rfl, decrypt_body,
    okOr_some, ok_bind, ensure_true _ hlength]
  rfl

end Android

section Ios

variable {identityPublic : K.PublicKey} {stanza : Ios.StanzaOpening.Stanza}

private theorem ios_open (hsame : SameFunctions C K P J) (fileKey : Bytes 16) {version : ℕ}
    (hversion : version = 1 ∨ version = 2) {key : K.PublicKey} (shared : Bytes 32)
    (ephemeral : EncodedPublicKey)
    (hparse : Ios.StanzaOpening.parse K stanza = .ok (version, key, ephemeral.1))
    (hbody : stanza.body = phoneBody C fileKey version shared ephemeral (Ios.compressed K identityPublic)) :
    Ios.StanzaOpening.openPhone K P stanza shared identityPublic = .ok fileKey := by
  have hlength : stanza.body.length = 32 := by
    rw [hbody, phoneBody, body_length]
  have hinfo : utf8 (if version = 2 then "age-plugin-phone/recipient/p256/v2/file-key"
      else "age-plugin-phone/recipient/p256/v1") =
        if version = 2 then fileKeyKdfInfoV2 else kdfInfo := by
    split_ifs <;> rfl
  have haad : utf8 (if version = 2 then Ios.TaggedRecipientCrypto.stanzaTagV2
      else Ios.TaggedRecipientCrypto.stanzaTag) ++ [0] ++ ephemeral.1 ++
        (Ios.compressed K identityPublic).1 =
      if version = 2 then fileKeyAssociatedDataV2 ephemeral (Ios.compressed K identityPublic)
        else associatedData ephemeral (Ios.compressed K identityPublic) := by
    split_ifs <;> rfl
  simp only [Ios.StanzaOpening.openPhone, hparse, Except.mapError, ok_bind, hinfo, haad,
    ios_openBox hsame hlength, hsame.iosHmac, ensure_true _ hversion]
  rw [hbody, phoneBody, show Bytes.replicate 12 0 = wrapNonce from rfl]
  have hdecrypt := decrypt_body (C := C) fileKey
  simp only [deriveKey] at hdecrypt ⊢
  rw [hdecrypt, okOr_some, ok_bind, ensure_true _ fileKey.2]
  rfl

end Ios

section Phones

variable (hC : CratePoints C) (hK : KitPoints K) (hsame : SameFunctions C K P J)
  (fileKey : Bytes 16) (identity ephemeral : C.SecretKey)

include hC

/-- The Android key of a point of the desktop. -/
private theorem android_key (key : C.PublicKey) :
    ∃ found : J.PublicKey, C.uncompressedPoint key = encodeUncompressed (J.w found) ∧
      encodeCompressed (J.w found) = encodePublic C key := by
  obtain ⟨point, hpoint, hkey⟩ := hC.onCurve key
  obtain ⟨found, rfl⟩ := exists_android J hpoint
  exact ⟨found, hkey, (encodePublic_of_point hkey).symm⟩

include hK in
private theorem ios_key (key : C.PublicKey) :
    ∃ found : K.PublicKey, K.x963Representation found = C.uncompressedPoint key := by
  obtain ⟨point, hpoint, hkey⟩ := hC.onCurve key
  obtain ⟨found, hfound⟩ := hK.isKey point hpoint
  exact ⟨found, by rw [hfound, hkey]⟩

include hK hsame

/-- A stanza of either version whose body is sealed for the identity opens everywhere. -/
private theorem opens_phone {version : ℕ} {stanza : TaggedStanza}
    (hversion : version = 1 ∨ version = 2) (htag : stanza.tag ≠ "p256tag")
    (hdesktop : unwrapFileKey C identity stanza = .ok fileKey)
    (hbody : stanza.body = phoneBody C fileKey version
      (C.diffieHellman ephemeral (C.publicKey identity)) (encodePublic C (C.publicKey ephemeral))
      (encodePublic C (C.publicKey identity)))
    (handroid : ∀ key : J.PublicKey,
      encodeCompressed (J.w key) = encodePublic C (C.publicKey ephemeral) →
      Android.TaggedRecipientCrypto.Parses J (androidStanza stanza)
        ⟨version, key, encodePublic C (C.publicKey ephemeral), stanza.body⟩)
    (hios : ∀ key : K.PublicKey, Ios.compressed K key = encodePublic C (C.publicKey ephemeral) →
      Ios.StanzaOpening.Parses K (iosStanza stanza)
        (version, key, encodePublic C (C.publicKey ephemeral))) :
    OpensAs C K P J identity stanza fileKey where
  desktop := hdesktop
  android identityPublic agree hidentity hagree := by
    obtain ⟨key, hkey, hencoded⟩ := android_key (J := J) hC (C.publicKey ephemeral)
    have hparse := Android.TaggedRecipientCrypto.parse_of_parses (handroid key hencoded)
    have hmatching : Android.TaggedRecipientCrypto.requireMatchingTag J identityPublic
        (androidStanza stanza) = .ok () := if_pos htag
    have hthree : version ≠ 3 := by omega
    rw [android_unwrap hparse hmatching, hagree key _ hkey, ← encodePublic_of_point hidentity, hbody,
      C.diffieHellman_comm identity ephemeral]
    exact android_open hsame fileKey hthree _ _ _
  ios identityPublic agree hidentity hagree := by
    obtain ⟨key, hkey⟩ := ios_key hC hK (C.publicKey ephemeral)
    have hcompressed {k : K.PublicKey} {peer : C.PublicKey}
        (h : K.x963Representation k = C.uncompressedPoint peer) :
        Ios.compressed K k = encodePublic C peer := by
      rw [Ios.compressed, h]
      rfl
    have hparse := Ios.StanzaOpening.parse_of_parses (hios key (hcompressed hkey))
    have hthree : ¬ version = 3 := by omega
    simp only [Ios.StanzaOpening.unwrap, hparse, Except.mapError, ok_bind, if_neg hthree,
      hagree key _ hkey, C.diffieHellman_comm identity ephemeral]
    refine ios_open hsame fileKey hversion _ _ hparse ?_
    rw [hcompressed hidentity]
    exact hbody

/-- A v1 stanza opens with the identity it was made for. -/
theorem opens_v1 : OpensAs C K P J identity
    (wrapFileKey C (C.publicKey identity) fileKey ephemeral) fileKey := by
  have hlength : (wrapFileKey C (C.publicKey identity) fileKey ephemeral).body.length = 32 :=
    body_length fileKey _ _ _
  refine opens_phone hC hK hsame fileKey identity ephemeral (Or.inl rfl)
    (show stanzaTag ≠ "p256tag" by decide) (unwrapFileKey_wrapFileKey fileKey ephemeral identity)
    rfl ?_ ?_
  · intro key hkey
    have hparses := Android.TaggedRecipientCrypto.Parses.v1 key hlength
    rw [hkey] at hparses
    exact hparses
  · intro key hkey
    have hparses := Ios.StanzaOpening.Parses.v1 key hlength
    rw [hkey] at hparses
    exact hparses

/-- A v2 stanza opens with the phone identity of its pairing. -/
theorem opens_v2 {recipient : PairedRecipient C} (h : C.publicKey identity = recipient.phoneIdentity) :
    OpensAs C K P J identity (wrapFileKeyV2 C recipient fileKey ephemeral) fileKey := by
  have hlength : (wrapFileKeyV2 C recipient fileKey ephemeral).body.length = 32 :=
    body_length fileKey _ _ _
  have hselection : ((selectorCall C recipient ephemeral
      (wrapFileKeyV2 C recipient fileKey ephemeral).body).sealed C).length = 32 :=
    body_length recipient.identityId _ _ _
  refine opens_phone hC hK hsame fileKey identity ephemeral (Or.inr rfl)
    (show stanzaTagV2 ≠ "p256tag" by decide)
    (unwrapFileKey_wrapFileKeyV2 fileKey ephemeral identity recipient h) (by rw [h]; rfl) ?_ ?_
  · intro key hkey
    have hparses := Android.TaggedRecipientCrypto.Parses.v2 key hlength hselection
    rw [hkey] at hparses
    exact hparses
  · intro key hkey
    have hparses := Ios.StanzaOpening.Parses.v2 key hlength hselection
    rw [hkey] at hparses
    exact hparses

omit hC hK in
private theorem android_hpkeOpen {identityPublic : J.PublicKey} {recipient : C.PublicKey}
    (hidentity : C.uncompressedPoint recipient = encodeUncompressed (J.w identityPublic))
    (dh : Bytes 32) (enc : List Byte) :
    Android.TaggedRecipientCrypto.hpkeOpen J dh enc (encodeCompressed (J.w identityPublic))
      (C.encrypt (Tag.schedule C dh enc recipient).1 (Tag.schedule C dh enc recipient).2 [] fileKey) =
        .ok fileKey := by
  have hdecode := Android.TaggedRecipientCrypto.decodeCompressed_eq_ok.mpr
    (rfl : (encodeCompressed (J.w identityPublic)).1 = _)
  have hlength : fileKey.1.length = Android.TaggedRecipientCrypto.fileKeyBytes := fileKey.2
  have hkem : Android.TaggedRecipientCrypto.hpkeKem = Tag.kem := by decide +kernel
  have hsuite : Android.TaggedRecipientCrypto.hpkeSuite = Tag.suite := by decide +kernel
  simp only [Android.TaggedRecipientCrypto.hpkeOpen, ensure_true _ dh.2, ok_bind, hdecode,
    Android.TaggedRecipientCrypto.encodeUncompressed_eq, android_extract hsame,
    android_expand hsame, hsame.androidOpen, ← hidentity, hkem, hsuite]
  change (okOr (C.decrypt (Tag.schedule C dh enc recipient).1
    (Tag.schedule C dh enc recipient).2 [] _) _ >>= _) = _
  rw [decrypt_body, okOr_some, ok_bind, ensure_true _ hlength]
  rfl

omit hK in
private theorem android_opens_tagged {identityPublic : J.PublicKey} {agree : J.PublicKey → List Byte}
    (hidentity : C.uncompressedPoint (C.publicKey identity) = encodeUncompressed (J.w identityPublic))
    (hagree : ∀ ephemeral peer, C.uncompressedPoint peer = encodeUncompressed (J.w ephemeral) →
      agree ephemeral = C.diffieHellman identity peer) :
    Android.TaggedRecipientCrypto.unwrapWithKeyStore J agree identityPublic
      (androidStanza (Tag.wrapWithEphemeral C (C.publicKey identity) fileKey ephemeral)) =
        .ok fileKey := by
  obtain ⟨key, hkey, -⟩ := android_key (J := J) hC (C.publicKey ephemeral)
  have hselection : (Tag.selection C (C.publicKey identity)
      (C.uncompressedPoint (C.publicKey ephemeral))).length = 4 := by
    simp [Tag.selection, (C.hmacSha256 _ _).2]
  have hlength : (Tag.wrapWithEphemeral C (C.publicKey identity) fileKey ephemeral).body.length = 32 :=
    body_length fileKey _ _ _
  have hparses := Android.TaggedRecipientCrypto.Parses.tagged key hlength hselection
  rw [← hkey] at hparses
  have hparse : Android.TaggedRecipientCrypto.parse J
      (androidStanza (Tag.wrapWithEphemeral C (C.publicKey identity) fileKey ephemeral)) = _ :=
    Android.TaggedRecipientCrypto.parse_of_parses hparses
  have hexpected := Android.TaggedRecipientCrypto.canonicalBase64_eq_ok (J := J) |>.mpr
    ⟨hselection, (rfl : Base64.encode (Tag.selection C (C.publicKey identity)
      (C.uncompressedPoint (C.publicKey ephemeral))) = _)⟩
  have htag : ¬ (androidStanza (Tag.wrapWithEphemeral C (C.publicKey identity) fileKey ephemeral)).tag ≠
      Android.TaggedRecipientCrypto.standardTag := fun h => h rfl
  have hmatching : Android.TaggedRecipientCrypto.requireMatchingTag J identityPublic
      (androidStanza (Tag.wrapWithEphemeral C (C.publicKey identity) fileKey ephemeral)) = .ok () := by
    rw [Android.TaggedRecipientCrypto.requireMatchingTag, if_neg htag, hparse, ok_bind,
      Android.TaggedRecipientCrypto.encodeCompressed_eq, ok_bind, ← encodePublic_of_point hidentity]
    simp only [android_hmac hsame, hsame.androidHash]
    change (Android.TaggedRecipientCrypto.canonicalBase64 J (Base64.encode (Tag.selection C
      (C.publicKey identity) (C.uncompressedPoint (C.publicKey ephemeral)))) 4 >>= _) = _
    rw [hexpected, ok_bind]
    exact ensure_true _ rfl
  rw [android_unwrap hparse hmatching, hagree key _ hkey, C.diffieHellman_comm identity ephemeral]
  exact android_hpkeOpen hsame fileKey hidentity _ _

omit hC hK in
private theorem ios_hpkeOpen {key identityPublic : K.PublicKey} {recipient : C.PublicKey}
    {arguments : List String} {body : List Byte} (dh : Bytes 32)
    (hidentity : K.x963Representation identityPublic = C.uncompressedPoint recipient)
    (hparse : Ios.StanzaOpening.P256Tag.parse K arguments body = .ok key)
    (hfound : Ios.StanzaOpening.P256Tag.matches K P identityPublic arguments body = .ok true)
    (hlength : body.length = 32)
    (hbody : body = C.encrypt (Tag.schedule C dh (K.x963Representation key) recipient).1
      (Tag.schedule C dh (K.x963Representation key) recipient).2 [] fileKey) :
    Ios.StanzaOpening.P256Tag.open K P dh identityPublic arguments body = .ok fileKey := by
  have hkem : Ios.StanzaOpening.P256Tag.kem = Tag.kem := by decide +kernel
  have hsuite : Ios.StanzaOpening.P256Tag.suite = Tag.suite := by decide +kernel
  simp only [Ios.StanzaOpening.P256Tag.open, hparse, hfound, Except.mapError, ok_bind,
    ensure_true _ True.intro, ensure_true _ dh.2, ios_extract hsame, ios_expand hsame, hidentity, hkem,
    hsuite, ios_openBox hsame hlength]
  change (okOr (C.decrypt (Tag.schedule C dh (K.x963Representation key) recipient).1
    (Tag.schedule C dh (K.x963Representation key) recipient).2 [] body) _ >>= _) = _
  have hdecrypt : C.decrypt (Tag.schedule C dh (K.x963Representation key) recipient).1
      (Tag.schedule C dh (K.x963Representation key) recipient).2 [] body = some fileKey.1 :=
    (C.decrypt_eq_some _ _ _ _ _).mpr hbody
  rw [hdecrypt, okOr_some, ok_bind, ensure_true _ fileKey.2]
  rfl

private theorem ios_opens_tagged {identityPublic : K.PublicKey}
    {agree : K.PublicKey → Except Ios.StanzaOpening.OpeningError (List Byte)}
    (hidentity : K.x963Representation identityPublic = C.uncompressedPoint (C.publicKey identity))
    (hagree : ∀ ephemeral peer, K.x963Representation ephemeral = C.uncompressedPoint peer →
      agree ephemeral = .ok (C.diffieHellman identity peer)) :
    Ios.StanzaOpening.unwrap K P (iosStanza (Tag.wrapWithEphemeral C (C.publicKey identity) fileKey
      ephemeral)) identityPublic agree = .ok fileKey := by
  obtain ⟨key, hkey⟩ := ios_key hC hK (C.publicKey ephemeral)
  have hselection : (Tag.selection C (C.publicKey identity)
      (C.uncompressedPoint (C.publicKey ephemeral))).length = 4 := by
    simp [Tag.selection, (C.hmacSha256 _ _).2]
  have hlength : (Tag.wrapWithEphemeral C (C.publicKey identity) fileKey ephemeral).body.length = 32 :=
    body_length fileKey _ _ _
  have hhead : (K.x963Representation key).1.head? = some 4 := by
    rw [hkey]
    exact head_uncompressed hC _
  have hcompressed : Ios.compressed K identityPublic = encodePublic C (C.publicKey identity) := by
    rw [Ios.compressed, hidentity]
    rfl
  have hparse : Ios.StanzaOpening.P256Tag.parse K
      (Tag.wrapWithEphemeral C (C.publicKey identity) fileKey ephemeral).args
      (Tag.wrapWithEphemeral C (C.publicKey identity) fileKey ephemeral).body = .ok key :=
    Ios.StanzaOpening.tagParse_eq_ok.mpr ⟨hlength, hhead, _, hselection, by rw [hkey]; rfl⟩
  have hexpected := Ios.StanzaOpening.base64_eq_ok.mpr
    ⟨hselection, (rfl : Base64.encode (Tag.selection C (C.publicKey identity)
      (C.uncompressedPoint (C.publicKey ephemeral))) = _)⟩
  have hfound : Ios.StanzaOpening.P256Tag.matches K P identityPublic
      (Tag.wrapWithEphemeral C (C.publicKey identity) fileKey ephemeral).args
      (Tag.wrapWithEphemeral C (C.publicKey identity) fileKey ephemeral).body = .ok true := by
    rw [Ios.StanzaOpening.P256Tag.matches, hparse, ok_bind]
    simp only [hkey, hcompressed, hsame.iosHash, hsame.iosHmac]
    change (Ios.StanzaOpening.P256Tag.base64 (Base64.encode (Tag.selection C
      (C.publicKey identity) (C.uncompressedPoint (C.publicKey ephemeral)))) 4 >>= _) = _
    rw [hexpected, ok_bind, pure_eq_ok]
    exact congrArg Except.ok (decide_eq_true rfl)
  have htag : (iosStanza (Tag.wrapWithEphemeral C (C.publicKey identity) fileKey ephemeral)).tag =
      "p256tag" := rfl
  have hparsed : Ios.StanzaOpening.parse K
      (iosStanza (Tag.wrapWithEphemeral C (C.publicKey identity) fileKey ephemeral)) =
        .ok (3, key, (K.x963Representation key).1) := by
    rw [Ios.StanzaOpening.parse, if_pos htag]
    change (Ios.StanzaOpening.P256Tag.parse K
      (Tag.wrapWithEphemeral C (C.publicKey identity) fileKey ephemeral).args
      (Tag.wrapWithEphemeral C (C.publicKey identity) fileKey ephemeral).body >>= _) = _
    rw [hparse]
    rfl
  have hopen := ios_hpkeOpen hsame fileKey (C.diffieHellman ephemeral (C.publicKey identity)) hidentity
    hparse hfound hlength (by rw [hkey]; rfl)
  rw [Ios.StanzaOpening.unwrap, hparsed]
  change ((Ios.StanzaOpening.P256Tag.matches K P identityPublic
    (Tag.wrapWithEphemeral C (C.publicKey identity) fileKey ephemeral).args
    (Tag.wrapWithEphemeral C (C.publicKey identity) fileKey ephemeral).body).mapError _ >>= _) = _
  rw [hfound]
  change (agree key >>= _) = _
  rw [hagree key _ hkey, C.diffieHellman_comm identity ephemeral, ok_bind]
  exact hopen

/-- A native tagged stanza opens with the identity it was made for. -/
theorem opens_tagged : OpensAs C K P J identity
    (Tag.wrapWithEphemeral C (C.publicKey identity) fileKey ephemeral) fileKey where
  desktop := unwrapFileKey_wrapWithEphemeral fileKey ephemeral identity (head_uncompressed hC)
  android _ _ hidentity hagree :=
    android_opens_tagged hC hsame fileKey identity ephemeral hidentity hagree
  ios _ _ hidentity hagree :=
    ios_opens_tagged hC hK hsame fileKey identity ephemeral hidentity hagree

end Phones

end Opening

/-- Which stanzas are accepted, and what is made of those the desktop wraps: they validate, the
matching identity opens them on every platform, and a v2 stanza is recognised by its own pairing
only. -/
theorem stanza_agreement (hC : CratePoints C) (hK : KitPoints K) (hsame : SameFunctions C K P J) :
    (∀ tag args body,
      (validateStanza C ⟨tag, args, body⟩ = .ok () ↔
        ∃ parsed, Android.TaggedRecipientCrypto.parse J ⟨tag, args, body⟩ = .ok parsed) ∧
      (validateStanza C ⟨tag, args, body⟩ = .ok () ↔
        ∃ parsed, Ios.StanzaOpening.parse K ⟨tag, args, body⟩ = .ok parsed)) ∧
    (∀ (fileKey : Bytes 16) (identity ephemeral : C.SecretKey),
      validateStanza C (wrapFileKey C (C.publicKey identity) fileKey ephemeral) = .ok () ∧
      OpensAs C K P J identity (wrapFileKey C (C.publicKey identity) fileKey ephemeral) fileKey ∧
      validateStanza C (Tag.wrapWithEphemeral C (C.publicKey identity) fileKey ephemeral) = .ok () ∧
      OpensAs C K P J identity (Tag.wrapWithEphemeral C (C.publicKey identity) fileKey ephemeral)
        fileKey) ∧
    ∀ (recipient : PairedRecipient C) (fileKey : Bytes 16) (ephemeral : C.SecretKey),
      validateStanza C (wrapFileKeyV2 C recipient fileKey ephemeral) = .ok () ∧
      (∀ identity, C.publicKey identity = recipient.phoneIdentity →
        OpensAs C K P J identity (wrapFileKeyV2 C recipient fileKey ephemeral) fileKey) ∧
      (∀ key secret, C.publicKey secret = recipient.desktopSelection →
        P256KeyAgreement.Holds C key secret →
        matchesStanzaV2 C recipient key (wrapFileKeyV2 C recipient fileKey ephemeral) = .ok true) ∧
      ∀ (other : PairedRecipient C) key secret, C.publicKey secret = other.desktopSelection →
        P256KeyAgreement.Holds C key secret →
        (other.identityId ≠ recipient.identityId ∨ other.desktopSelection ≠ recipient.desktopSelection ∨
          other.phoneIdentity ≠ recipient.phoneIdentity) →
        ∀ calls, SealsApart C calls →
          (∀ r ∈ [recipient, other], selectorCall C r ephemeral
            (wrapFileKeyV2 C recipient fileKey ephemeral).body ∈ calls) →
          matchesStanzaV2 C other key (wrapFileKeyV2 C recipient fileKey ephemeral) = .ok false := by
  refine ⟨?_, ?_, ?_⟩
  · intro tag args body
    rw [desktop_accepts hC, android_accepts, ios_accepts hK]
    exact ⟨Iff.rfl, Iff.rfl⟩
  · intro fileKey identity ephemeral
    exact ⟨validateStanza_wrapFileKey fileKey ephemeral _,
      opens_v1 hC hK hsame fileKey identity ephemeral,
      validateStanza_wrapWithEphemeral fileKey ephemeral _ (head_uncompressed hC),
      opens_tagged hC hK hsame fileKey identity ephemeral⟩
  · intro recipient fileKey ephemeral
    refine ⟨validateStanza_wrapFileKeyV2 fileKey ephemeral recipient, ?_, ?_, ?_⟩
    · intro identity hidentity
      exact opens_v2 hC hK hsame fileKey identity ephemeral hidentity
    · intro key secret hsecret hkey
      exact matches_own_pairing fileKey ephemeral hsecret hkey
    · intro other key secret hsecret hkey hother calls hapart hcalls
      refine matches_no_other fileKey ephemeral hsecret hkey hapart hcalls ?_
      intro heq
      subst heq
      simp at hother

section Sample

/-- The values a sample v2 stanza needs; another pairing with the same desktop would seal the same
identifier under other associated data. -/
private def wrappingTable : CryptoTable where
  digests := []
  signatures := []
  secrets := [
    (ephemeralPoint, identityPoint, 0xb01a172a76a4602c92d3242cb897dde3024c740debb215b4c6b0aae93c2291a9),
    (ephemeralPoint, desktopSelectionPoint,
      0x1057e0ab5780f470defc9378d1c7c87437bb4c6f9ea55c63d936266dbd781fda)]
  macs := [
    ((encodeCompressed ephemeralPoint).1 ++ (encodeCompressed identityPoint).1,
      (number 32 0xb01a172a76a4602c92d3242cb897dde3024c740debb215b4c6b0aae93c2291a9).1,
      0x0e89b01ff844a412230ba644a8b252e0c6885b933760c7d9bfb5571a991eb120),
    ((number 32 0x0e89b01ff844a412230ba644a8b252e0c6885b933760c7d9bfb5571a991eb120).1,
      fileKeyKdfInfoV2 ++ [1], 0x15462f43c5459b8b7452cba37a49b1031694d616227d723b2b09a137616eed64),
    ((encodeCompressed ephemeralPoint).1 ++ (encodeCompressed desktopSelectionPoint).1,
      (number 32 0x1057e0ab5780f470defc9378d1c7c87437bb4c6f9ea55c63d936266dbd781fda).1,
      0x88a4137ec541b76a13e1320d85970e84d13c982bddc3b23aedbb8b4157eb4958),
    ((number 32 0x88a4137ec541b76a13e1320d85970e84d13c982bddc3b23aedbb8b4157eb4958).1,
      selectionKdfInfoV2 ++ [1], 0x610b41e358a14d37a6b564dc2562eb92acccd6d946d51d6cb5db827cc5a3f8d6)]
  streams := [
    (number 32 0x15462f43c5459b8b7452cba37a49b1031694d616227d723b2b09a137616eed64,
      0x24b7b0146d67de8ac69b81bf060aa3d7),
    (number 32 0x610b41e358a14d37a6b564dc2562eb92acccd6d946d51d6cb5db827cc5a3f8d6,
      0xaa4a91b5bb18866927eb2d38808282cb)]
  tags := [
    (number 32 0x15462f43c5459b8b7452cba37a49b1031694d616227d723b2b09a137616eed64,
      fileKeyAssociatedDataV2 (encodeCompressed ephemeralPoint) (encodeCompressed identityPoint),
      (number 16 0x20b3b4106963da8ec29f85bb020ea7d3).1, 0xcc014b34ffe21278b73af6d095a441db),
    (number 32 0x610b41e358a14d37a6b564dc2562eb92acccd6d946d51d6cb5db827cc5a3f8d6,
      selectionAssociatedData (encodeCompressed ephemeralPoint) (encodeCompressed identityPoint)
        (encodeCompressed desktopSelectionPoint)
        (number 32 0x20b3b4106963da8ec29f85bb020ea7d3cc014b34ffe21278b73af6d095a441db).1,
      (number 16 0xa84893b7b91a846b25e92f3a828080c9).1, 0x8c4413715a0dce6acd6c8a5610d84f0b),
    (number 32 0x610b41e358a14d37a6b564dc2562eb92acccd6d946d51d6cb5db827cc5a3f8d6,
      selectionAssociatedData (encodeCompressed ephemeralPoint) (encodeCompressed desktopSigningPoint)
        (encodeCompressed desktopSelectionPoint)
        (number 32 0x20b3b4106963da8ec29f85bb020ea7d3cc014b34ffe21278b73af6d095a441db).1,
      (number 16 0xa84893b7b91a846b25e92f3a828080c9).1, 0xff8f4f4be079d19d25219cafa517603b)]

private def wrappingCrates : Crates :=
  { Crates.ofTable wrappingTable with
    hmacSha256 := fun key message =>
      wrappingTable.hmac (if key.isEmpty then List.replicate 32 0 else key) message }

private def wrappingKit : Ios.CryptoKit where
  PublicKey := Point
  x963Representation key := encodeUncompressed key
  fromCompressed := Point.fromCompressed
  fromCompressed_compressed key := by
    change Point.fromCompressed (compress (encodeUncompressed key)) = some key
    rw [compress_encodeUncompressed]
    exact Point.fromCompressed_encodeCompressed key
  compressed_fromCompressed bytes key h := by
    change compress (encodeUncompressed key) = bytes
    rw [compress_encodeUncompressed]
    exact (Point.encodeCompressed_of_fromCompressed h).1
  isValidSignature key message signature := wrappingTable.verify key (wrappingTable.sha256 message) signature
  sha256 := wrappingTable.sha256

private def wrappingCiphers : Ios.StanzaOpening.Ciphers where
  hmacSha256 := wrappingCrates.hmacSha256
  openBox key _ aad ciphertext tag := wrappingTable.openMessage key aad (ciphertext ++ tag)

private def wrappingJca : Android.TaggedRecipientCrypto.Jca where
  PublicKey := Point
  decodeBase64 := Base64.decode
  decodeBase64_encode bytes := Base64.decode_eq_some.mpr rfl
  generatePublic := Point.ofAffine
  w := Subtype.val
  generatePublic_isSome point h := by
    rw [Point.ofAffine, dif_pos (onCurve_iff.mp h)]
    rfl
  w_generatePublic point key h := by
    rw [Point.ofAffine] at h
    split_ifs at h
    exact congrArg Subtype.val (Option.some.inj h).symm
  w_onCurve key := onCurve_iff.mpr key.2
  w_injective := Subtype.val_injective
  sha256 := wrappingTable.sha256
  hmacSha256 := wrappingCrates.hmacSha256
  doFinal key _ := wrappingTable.openMessage key

private def wrappingRecipient (phone : Point) : PairedRecipient wrappingCrates :=
  ⟨phone, desktopSelectionPoint, Bytes.replicate 16 2⟩

private def wrappedStanza : TaggedStanza :=
  wrapFileKeyV2 wrappingCrates (wrappingRecipient identityPoint) (Bytes.replicate 16 4) ephemeralPoint

/-- The selectors of two pairings that share their desktop and their identifier. -/
private def sampleCalls : Set SelectorCall :=
  {selectorCall wrappingCrates (wrappingRecipient identityPoint) ephemeralPoint wrappedStanza.body,
    selectorCall wrappingCrates (wrappingRecipient desktopSigningPoint) ephemeralPoint
      wrappedStanza.body}

/-- A v2 stanza opens with the sample identity, and a pairing that differs in the phone key alone
does not recognise it. -/
theorem stanza_agreement_sample :
    validateStanza wrappingCrates wrappedStanza = .ok () ∧
    OpensAs wrappingCrates wrappingKit wrappingCiphers wrappingJca identityPoint wrappedStanza
      (Bytes.replicate 16 4) ∧
    matchesStanzaV2 wrappingCrates (wrappingRecipient identityPoint)
      (P256KeyAgreement.ofSigningKey wrappingCrates desktopSelectionPoint) wrappedStanza = .ok true ∧
    matchesStanzaV2 wrappingCrates (wrappingRecipient desktopSigningPoint)
      (P256KeyAgreement.ofSigningKey wrappingCrates desktopSelectionPoint) wrappedStanza =
        .ok false := by
  have hC : CratePoints wrappingCrates :=
    ⟨fun key => ⟨key.1, onCurve_iff.mpr key.2, rfl⟩, fun point h => ⟨⟨point, onCurve_iff.mp h⟩, rfl⟩⟩
  have hK : KitPoints wrappingKit :=
    ⟨fun key => ⟨key.1, onCurve_iff.mpr key.2, rfl⟩, fun point h => ⟨⟨point, onCurve_iff.mp h⟩, rfl⟩⟩
  have hsame : SameFunctions wrappingCrates wrappingKit wrappingCiphers wrappingJca :=
    ⟨rfl, rfl, rfl, rfl, rfl, fun _ _ _ _ _ _ => rfl, fun _ => rfl⟩
  have hapart : SealsApart wrappingCrates sampleCalls := by
    rw [SealsApart, sampleCalls, Set.injOn_pair]
    intro hsealed
    exact absurd hsealed (by decide +kernel)
  obtain ⟨-, -, hv2⟩ := stanza_agreement hC hK hsame
  obtain ⟨hvalid, hopens, hown, hothers⟩ :=
    hv2 (wrappingRecipient identityPoint) (Bytes.replicate 16 4) ephemeralPoint
  have hholds := P256KeyAgreement.ofSigningKey_holds (C := wrappingCrates) desktopSelectionPoint
  refine ⟨hvalid, hopens identityPoint rfl, hown _ _ rfl hholds,
    hothers (wrappingRecipient desktopSigningPoint) _ desktopSelectionPoint rfl hholds ?_ sampleCalls
      hapart ?_⟩
  · exact Or.inr (Or.inr (by decide))
  · intro r hr
    simp only [List.mem_cons, List.not_mem_nil, or_false] at hr
    rcases hr with rfl | rfl
    · exact Or.inl rfl
    · exact Or.inr rfl

end Sample

end AgePluginPhone.Phone.Stanza
