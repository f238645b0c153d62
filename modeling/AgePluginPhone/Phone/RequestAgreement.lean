import AgePluginPhone.Core.Consumption
import AgePluginPhone.Core.RequestAcceptance
import AgePluginPhone.Phone.EnvelopeItems
import AgePluginPhone.Phone.SignatureAgreement
import AgePluginPhone.Phone.TablePlatforms

/-!
# Agreement on unwrap requests

The desktop's own verifier and those of the two phones accept the same bytes as requests of a
pairing, and read the same fields from them.
-/

namespace AgePluginPhone.Phone.Envelope

open Library Cbor P256 AgePluginPhone.Core AgePluginPhone.Phone.Stanza

/-- What a verifier finds of a request of the pairing, where `verifies` is the check of a signature
under the desktop's key. -/
structure RequestPasses (verifies : List Byte → Bytes 64 → Bool) (desktopId identityId : Id)
    (now : U64) (request : SignedUnwrapRequest) : Prop where
  session : ∃ point, OnCurve point ∧ request.payload.sessionPublicKey = encodeCompressed point
  stanza : WellFormed request.payload.recipientStanza.tag request.payload.recipientStanza.args
    request.payload.recipientStanza.body
  hint : ∀ s ∈ request.payload.callerHint, (utf8 s).length ≤ 64
  desktop : request.payload.desktopId = desktopId
  identity : request.payload.identityId = identityId
  notExpired : now.val ≤ request.payload.expiresAtUnix.val
  lifetime : request.payload.expiresAtUnix.val ≤ now.val + 300
  time : request.payload.expiresAtUnix.val < 2 ^ 63
  low : IsLowS request.signature
  signature : verifies (domainInput requestSig (encodeRequest request.payload)) request.signature =
    true

/-- The bytes are those of a request that passes. -/
def Passing (verifies : List Byte → Bytes 64 → Bool) (desktopId identityId : Id) (now : U64)
    (b : List Byte) (request : SignedUnwrapRequest) : Prop :=
  b = SignedUnwrapRequest.encode request ∧ b.length ≤ 65536 ∧
    RequestPasses verifies desktopId identityId now request

variable {verifies : List Byte → Bytes 64 → Bool} {desktopId identityId : Id} {now : U64}
  {b : List Byte} {request : SignedUnwrapRequest}

/-- The bounds on a well-formed stanza. -/
theorem stanzaBounds {tag : String} {args : List String} {body : List Byte}
    (h : WellFormed tag args body) : StanzaBounds ⟨tag, args, body⟩ := by
  have hcompressed (point : Affine) :
      (utf8 (Base64.encode (encodeCompressed point))).length = 44 := by
    rw [Base64.encode_length, (encodeCompressed point).2]
  have hselector {bytes : List Byte} (hlength : bytes.length = 32) :
      (utf8 (Base64.encode bytes)).length = 43 := by
    rw [Base64.encode_length, hlength]
  cases h with
  | v1 point hpoint hbody =>
      refine ⟨show (utf8 "phone-p256-v1").length ≤ 64 by decide +kernel, .inl rfl, ?_, hbody⟩
      simp [hcompressed]
  | v2 point hpoint hbody hselection =>
      refine ⟨show (utf8 "phone-p256-v2").length ≤ 64 by decide +kernel, .inr rfl, ?_, hbody⟩
      simp [hcompressed, hselector hselection]
  | tagged point hpoint hbody htag =>
      refine ⟨show (utf8 "p256tag").length ≤ 64 by decide +kernel, .inr rfl, ?_, hbody⟩
      simp [Base64.encode_length, htag, (encodeUncompressed point).2]

section Desktop

variable {C : Crates} {m : TextMinicbor} {pairing : PairingRecord} {key : C.PublicKey}

private theorem session_iff (hC : CratePoints C) {bytes : EncodedPublicKey} :
    (∃ key, bytes = encodePublic C key) ↔ ∃ point, OnCurve point ∧ bytes = encodeCompressed point := by
  constructor
  · rintro ⟨key, rfl⟩
    obtain ⟨point, hpoint, hkey⟩ := hC.onCurve key
    exact ⟨point, hpoint, encodePublic_of_point hkey⟩
  · rintro ⟨point, hpoint, rfl⟩
    obtain ⟨key, hkey⟩ := hC.isKey point hpoint
    exact ⟨key, (encodePublic_of_point hkey).symm⟩

/-- The desktop's decoder and checks, by the conditions they share with the phones. -/
theorem desktop_accepts_iff (hC : CratePoints C)
    (hkey : pairing.desktopSigningPublicKey = encodePublic C key) {digest : ProtocolDigest} :
    (SignedUnwrapRequest.decode C m b = .ok request ∧
      checkRequest C request pairing now = .ok digest) ↔
    Passing (fun message signature => C.verifyPrehash key (C.sha256 message) signature)
      pairing.desktopId pairing.identityId now b request ∧
      digest = hash C requestDigest b := by
  have hstanza : ConformingStanza C request.payload.recipientStanza ↔
      WellFormed request.payload.recipientStanza.tag request.payload.recipientStanza.args
        request.payload.recipientStanza.body := by
    rw [← desktop_accepts hC, validateStanza_eq_ok]
  have hsigning : C.fromSec1Bytes pairing.desktopSigningPublicKey = some key := by
    rw [hkey]
    exact C.fromSec1Bytes_compressed key
  rw [SignedUnwrapRequest.decode_eq_ok, checkRequest_eq_ok_iff, validateRequest_eq_ok]
  constructor
  · rintro ⟨⟨rfl, hsize, -⟩, h⟩
    obtain ⟨found, hfound, hlow, hverify⟩ := h.signature
    rw [hsigning, Option.some.injEq] at hfound
    subst hfound
    have htime : request.payload.expiresAtUnix.val ≤ 2 ^ 63 - 1 := h.time
    refine ⟨⟨rfl, hsize, (session_iff hC).mp h.sessionKey, hstanza.mp h.stanza, h.hint, h.desktopId,
      h.identityId, h.notExpired, h.lifetime, by omega, hlow, hverify⟩, ?_⟩
    exact (VerifiedRequest.mk.inj h.result).2
  · rintro ⟨⟨rfl, hsize, h⟩, rfl⟩
    have hexpires := h.time
    have htime : request.payload.expiresAtUnix.val ≤ maxProtocolTime := by
      rw [maxProtocolTime]
      omega
    have hsession := (session_iff hC).mpr h.session
    exact ⟨⟨rfl, hsize, htime, hsession, hstanza.mpr h.stanza, h.hint⟩, hsession,
      hstanza.mpr h.stanza, h.hint, h.desktop, h.identity, h.notExpired, h.lifetime, htime,
      ⟨key, hsigning, h.low, h.signature⟩, rfl⟩

end Desktop

section Ios

variable {K : Ios.CryptoKit} {kitKey : K.PublicKey}

private theorem sized_eq_some {n : ℕ} {bytes : List Byte} {sized : Bytes n} :
    (if h : bytes.length = n then some (⟨bytes, h⟩ : Bytes n) else none) = some sized ↔
      bytes = sized.1 := by
  split_ifs with h
  · rw [Option.some.injEq, Subtype.ext_iff]
  · simp only [false_iff]
    intro hbytes
    exact h (hbytes ▸ sized.2)

private theorem ios_parseEphemeral_eq_ok {argument : String} {key : K.PublicKey} :
    Ios.TaggedRecipientCrypto.parseEphemeral K argument = .ok key ↔
      argument = Base64.encode (Ios.compressed K key) := by
  simp only [Ios.TaggedRecipientCrypto.parseEphemeral, bind_eq_ok, okOr_eq_ok, sized_eq_some,
    Ios.StanzaOpening.decodeCanonicalBase64_eq_some, Ios.StanzaOpening.publicKey_eq_ok_iff]
  constructor
  · rintro ⟨_, rfl, compact, rfl, rfl⟩
    rfl
  · rintro rfl
    exact ⟨_, rfl, _, rfl, rfl⟩

private theorem ios_parses_of_parse {stanza : Ios.RecipientStanza} {key : K.PublicKey}
    (h : Ios.TaggedRecipientCrypto.parse K stanza = .ok key) :
    ∃ parsed, Ios.StanzaOpening.Parses K ⟨stanza.tag, stanza.arguments, stanza.body⟩ parsed := by
  obtain ⟨tag, arguments, body⟩ := stanza
  unfold Ios.TaggedRecipientCrypto.parse at h
  by_cases htag : tag = "p256tag"
  · subst htag
    rw [if_pos rfl] at h
    unfold Ios.TaggedRecipientCrypto.parseTagged at h
    split at h
    · next name encapsulated harguments =>
        obtain rfl : arguments = [name, encapsulated] := harguments
        simp only [bind_eq_ok, okOr_eq_ok, ensure_eq_ok, exists_const, sized_eq_some,
          Ios.StanzaOpening.decodeCanonicalBase64_eq_some, Ios.StanzaOpening.fromX963_eq_some] at h
        obtain ⟨_, rfl, hname, _, rfl, point, rfl, hhead, rfl⟩ := h
        exact ⟨_, .tagged key body.2 hname hhead⟩
    · cases h
  · rw [if_neg htag] at h
    split at h
    · next ephemeral harguments =>
        obtain rfl : arguments = [ephemeral] := harguments
        split_ifs at h with hone
        obtain rfl : tag = Ios.TaggedRecipientCrypto.stanzaTag := hone
        obtain rfl := ios_parseEphemeral_eq_ok.mp h
        exact ⟨_, .v1 key body.2⟩
    · next ephemeral selection harguments =>
        obtain rfl : arguments = [ephemeral, selection] := harguments
        simp only [bind_eq_ok, okOr_eq_ok, ensure_eq_ok, exists_const, Option.filter_eq_some_iff,
          Ios.StanzaOpening.decodeCanonicalBase64_eq_some, decide_eq_true_eq,
          ios_parseEphemeral_eq_ok] at h
        obtain ⟨rfl, -, -, selector, ⟨rfl, hselector⟩, rfl⟩ := h
        exact ⟨_, .v2 key body.2 hselector⟩
    · cases h

private theorem ios_parse_of_parses {stanza : Ios.RecipientStanza}
    {parsed : ℕ × K.PublicKey × List Byte}
    (h : Ios.StanzaOpening.Parses K ⟨stanza.tag, stanza.arguments, stanza.body⟩ parsed) :
    ∃ key, Ios.TaggedRecipientCrypto.parse K stanza = .ok key := by
  obtain ⟨tag, arguments, body⟩ := stanza
  generalize hstanza : (⟨tag, arguments, body.1⟩ : Ios.StanzaOpening.Stanza) = found at h
  cases h with
  | v1 key hbody =>
      obtain ⟨rfl, rfl, rfl⟩ := Ios.StanzaOpening.Stanza.mk.inj hstanza
      exact ⟨key, ios_parseEphemeral_eq_ok.mpr rfl⟩
  | @v2 content selection key hbody hselection =>
      obtain ⟨rfl, rfl, rfl⟩ := Ios.StanzaOpening.Stanza.mk.inj hstanza
      have htag : ¬ Ios.TaggedRecipientCrypto.stanzaTagV2 = "p256tag" := by decide
      refine ⟨key, ?_⟩
      simp only [Ios.TaggedRecipientCrypto.parse, if_neg htag, bind_eq_ok, okOr_eq_ok, ensure_eq_ok,
        exists_const, Option.filter_eq_some_iff, Ios.StanzaOpening.decodeCanonicalBase64_eq_some,
        decide_eq_true_eq, ios_parseEphemeral_eq_ok]
      exact ⟨trivial, _, ⟨rfl, (Ios.compressed K key).2⟩, selection, ⟨rfl, hselection⟩, trivial⟩
  | @tagged content name key hbody hname hhead =>
      obtain ⟨rfl, rfl, rfl⟩ := Ios.StanzaOpening.Stanza.mk.inj hstanza
      refine ⟨key, ?_⟩
      simp only [Ios.TaggedRecipientCrypto.parse, if_true, Ios.TaggedRecipientCrypto.parseTagged,
        bind_eq_ok, okOr_eq_ok, ensure_eq_ok, exists_const, sized_eq_some,
        Ios.StanzaOpening.decodeCanonicalBase64_eq_some, Ios.StanzaOpening.fromX963_eq_some]
      exact ⟨name, rfl, hname, _, rfl, _, rfl, hhead, rfl⟩

/-- The request verifier accepts the stanzas that the opener accepts. -/
theorem ios_parse_iff (hK : KitPoints K) {stanza : Ios.RecipientStanza} :
    (∃ key, Ios.TaggedRecipientCrypto.parse K stanza = .ok key) ↔
      WellFormed stanza.tag stanza.arguments stanza.body := by
  rw [← ios_accepts hK]
  constructor
  · rintro ⟨key, hparse⟩
    obtain ⟨parsed, hparses⟩ := ios_parses_of_parse hparse
    exact ⟨parsed, Ios.StanzaOpening.parse_of_parses hparses⟩
  · rintro ⟨parsed, hparse⟩
    exact ios_parse_of_parses (Ios.StanzaOpening.parses_of_parse hparse)

private theorem isLowS_iff (signature : Bytes 64) :
    Ios.isLowS (signature.1.drop 32) = true ↔ IsLowS signature := by
  have hlength : (signature.1.drop 32).length = Ios.halfOrder.length := by
    rw [List.length_drop, signature.2]
    rfl
  have hhalf : bigEndianValue Ios.halfOrder = order / 2 := by decide +kernel
  rw [Ios.isLowS, decide_eq_true_iff, Ios.lexicographicCompare_iff hlength, hhalf]
  rfl

theorem ios_verify_eq_ok {domain payload : List Byte} {signature : Bytes 64} {u : Unit} :
    Ios.verify K kitKey domain payload signature = .ok u ↔ IsLowS signature ∧
      K.isValidSignature kitKey (domainInput domain payload) signature = true := by
  simp only [Ios.verify, bind_eq_ok, ensure_eq_ok, exists_const, isLowS_iff]
  rfl

theorem ios_stanzaOf_eq_ok {item : Item} {stanza : Ios.RecipientStanza} :
    Ios.stanzaOf item = .ok stanza ↔
      item = stanzaItem ⟨stanza.tag, stanza.arguments, stanza.body⟩ ∧
      (1 ≤ stanza.arguments.length ∧ stanza.arguments.length ≤ 2) ∧ (utf8 stanza.tag).length ≤ 64 ∧
      ∀ s ∈ stanza.arguments, (utf8 s).length ≤ 128 := by
  have htexts : ∀ {items : List Item} {texts : List String},
      items.mapM (fun argument => Ios.cbor (Ios.StrictCbor.boundedText 128 argument)) = .ok texts ↔
        items = texts.map .text ∧ ∀ s ∈ texts, (utf8 s).length ≤ 128 :=
    mapM_text fun item text => Ios.cbor_eq_ok.trans ios_boundedText_eq_ok
  constructor
  · intro h
    simp only [Ios.stanzaOf, bind_eq_ok, Ios.cbor_eq_ok, Ios.StrictCbor.exactArray_eq_ok] at h
    obtain ⟨parts, ⟨rfl, -⟩, h⟩ := h
    split at h
    · simp only [bind_eq_ok, ensure_eq_ok, exists_const, Ios.cbor_eq_ok, ios_boundedText_eq_ok, htexts,
        Ios.StrictCbor.exactBytes_eq_ok, pure_eq_ok, Except.ok.injEq] at h
      obtain ⟨hcount, tag, ⟨rfl, htag⟩, arguments, ⟨rfl, harguments⟩, body, rfl, rfl⟩ := h
      exact ⟨rfl, by simpa using hcount, htag, harguments⟩
    · cases h
  · rintro ⟨rfl, hcount, htag, harguments⟩
    simp only [Ios.stanzaOf, bind_eq_ok, Ios.cbor_eq_ok, Ios.StrictCbor.exactArray_eq_ok]
    refine ⟨_, ⟨rfl, rfl⟩, ?_⟩
    simp only [bind_eq_ok, ensure_eq_ok, exists_const, Ios.cbor_eq_ok, ios_boundedText_eq_ok, htexts,
      Ios.StrictCbor.exactBytes_eq_ok, pure_eq_ok, Except.ok.injEq, List.length_map]
    exact ⟨hcount, _, ⟨rfl, htag⟩, _, ⟨rfl, harguments⟩, _, rfl, rfl⟩

theorem ios_callerHintOf_eq_ok {item : Item} {hint : Option String} :
    Ios.callerHintOf item = .ok hint ↔ item = hintItem hint ∧ ∀ s ∈ hint, (utf8 s).length ≤ 64 := by
  have htext : (∃ text, Ios.StrictCbor.boundedText 64 item = .ok text ∧ some text = hint) ↔
      ∃ text, (item = .text text ∧ (utf8 text).length ≤ 64) ∧ some text = hint := by
    simp only [ios_boundedText_eq_ok]
  cases item with
  | null => cases hint <;> simp [Ios.callerHintOf, hintItem]
  | _ =>
      simp only [Ios.callerHintOf, bind_eq_ok, Ios.cbor_eq_ok, pure_eq_ok, Except.ok.injEq, htext]
      cases hint <;> simp [hintItem]

theorem ios_validateTime_eq_ok {expires : U64} {u : Unit} :
    Ios.ProtocolBounds.validateTime expires now = .ok u ↔
      expires.val < 2 ^ 63 ∧ now.val ≤ expires.val ∧ expires.val ≤ now.val + 300 := by
  simp only [Ios.ProtocolBounds.validateTime, Ios.ProtocolBounds.validateTimestamp, bind_eq_ok,
    ensure_eq_ok, exists_const, Fin.le_def]
  rw [Ios.ProtocolBounds.maximumTime]
  omega

variable (K) in
/-- What the phone keeps of a request. -/
structure IosReads (request : SignedUnwrapRequest) (r : Ios.VerifiedUnwrapRequest K) : Prop where
  requestId : r.requestId = request.payload.requestId
  identityId : r.identityId = request.payload.identityId
  desktopId : r.desktopId = request.payload.desktopId
  session : Ios.compressed K r.sessionPublicKey = request.payload.sessionPublicKey
  tag : r.stanza.tag = request.payload.recipientStanza.tag
  arguments : r.stanza.arguments = request.payload.recipientStanza.args
  body : r.stanza.body.1 = request.payload.recipientStanza.body
  nonce : r.nonce = request.payload.nonce
  expires : r.expiresAtUnix = request.payload.expiresAtUnix
  hint : r.callerHint = request.payload.callerHint
  signedBytes : r.signedBytes = SignedUnwrapRequest.encode request
  digest : r.digest = Ios.digest K requestDigest (SignedUnwrapRequest.encode request)

/-- The verifier on iOS accepts exactly the requests that pass. -/
theorem ios_verifyRequest_eq_ok (hK : KitPoints K) {r : Ios.VerifiedUnwrapRequest K} :
    Ios.verifyRequest K b desktopId identityId kitKey now = .ok r ↔ ∃ request,
      Passing (K.isValidSignature kitKey) desktopId identityId now b request ∧
        IosReads K request r := by
  constructor
  · intro h
    simp only [Ios.verifyRequest, Ios.requestValues, bind_eq_ok, Ios.cbor_eq_ok, pure_eq_ok,
      Except.ok.injEq] at h
    obtain ⟨_, ⟨⟨payload, signature⟩, hsigned, values, hvalues, _, hheader, rfl⟩, h⟩ := h
    obtain ⟨rfl, hsize⟩ := ios_decodeSigned_eq_ok.mp hsigned
    obtain ⟨hpayload, -, -⟩ := ios_encode_of_exactArray (bind_eq_ok.mpr hvalues)
    dsimp only at h hpayload
    split at h
    · simp only [bind_eq_ok, ensure_eq_ok, exists_const, Ios.cbor_eq_ok, mapError_ok,
        Ios.StrictCbor.exactBytes_eq_ok, Ios.StrictCbor.exactUnsigned_eq_ok, ios_stanzaOf_eq_ok,
        ios_callerHintOf_eq_ok, ios_validateTime_eq_ok, ios_verify_eq_ok, Except.ok.injEq] at h
      obtain ⟨requestId, rfl, identity, rfl, desktop, rfl, ⟨rfl, rfl⟩, stanza, ⟨rfl, -, -, -⟩, _, hparse,
        expires, rfl, ⟨htime, hlive, hlifetime⟩, hint, ⟨rfl, hhint⟩, ⟨hlow, hverify⟩, sessionKey,
        ⟨session, rfl, hsession⟩, nonce, rfl, rfl⟩ := h
      have hitems := ios_header_eq_ok.mp (show Ios.header _ requestKind.val = .ok _ from hheader)
      let v : UnwrapRequest := ⟨requestId, identity, desktop, session,
        ⟨stanza.tag, stanza.arguments, stanza.body⟩, nonce, expires, hint⟩
      obtain rfl : payload = encodeRequest v := by
        rw [hpayload, hitems, ← encode_requestItems]
        rfl
      obtain rfl := Ios.StanzaOpening.publicKey_eq_ok_iff.mp hsession
      obtain ⟨point, hpoint, hkey⟩ := hK.onCurve sessionKey
      exact ⟨⟨v, signature⟩, ⟨rfl, hsize, ⟨point, hpoint, compressed_of_point hkey⟩,
        (ios_parse_iff hK).mp ⟨_, hparse⟩, hhint, rfl, rfl, hlive, hlifetime, htime, hlow, hverify⟩,
        rfl, rfl, rfl, rfl, rfl, rfl, rfl, rfl, rfl, rfl, rfl, rfl⟩
    · cases h
  · rintro ⟨⟨v, signature⟩, ⟨rfl, hsize, h⟩, hr⟩
    have hbounds : StanzaBounds v.recipientStanza := stanzaBounds h.stanza
    have hcount : 1 ≤ v.recipientStanza.args.length ∧ v.recipientStanza.args.length ≤ 2 := by
      have := hbounds.count
      omega
    have hpayload : (encodeRequest v).length ≤ 65536 := (payload_length_le _ signature).trans hsize
    have hread := ios_exactArray_decode (request_readable hcount.2 h.time)
      (by rw [encode_requestItems]; exact hpayload)
    rw [encode_requestItems] at hread
    have hwell : WellFormed r.stanza.tag r.stanza.arguments r.stanza.body := by
      rw [hr.tag, hr.arguments, hr.body]
      exact h.stanza
    obtain ⟨key, hparse⟩ := (ios_parse_iff hK).mpr hwell
    have hstanza : Ios.stanzaOf (stanzaItem v.recipientStanza) = .ok r.stanza := by
      rw [ios_stanzaOf_eq_ok, hr.tag, hr.arguments, hr.body]
      exact ⟨rfl, hcount, hbounds.tag, hbounds.args⟩
    have hsession : Ios.publicKey K v.sessionPublicKey = .ok r.sessionPublicKey :=
      Ios.StanzaOpening.publicKey_eq_ok_iff.mpr hr.session.symm
    have hheader : Ios.header (requestItems v) requestKind.val = .ok () := ios_header_eq_ok.mpr rfl
    simp only [Ios.verifyRequest, Ios.requestValues, bind_eq_ok, Ios.cbor_eq_ok, pure_eq_ok,
      Except.ok.injEq]
    refine ⟨_, ⟨_, ios_decodeSigned_eq_ok.mpr ⟨rfl, hsize⟩, _, bind_eq_ok.mp hread, (), hheader, rfl⟩,
      ?_⟩
    simp only [requestItems, headerItems, List.cons_append, List.nil_append, bind_eq_ok,
      ensure_eq_ok, Ios.cbor_eq_ok, mapError_ok, Ios.StrictCbor.exactBytes_eq_ok,
      Ios.StrictCbor.exactUnsigned_eq_ok, ios_callerHintOf_eq_ok, ios_validateTime_eq_ok,
      ios_verify_eq_ok, Except.ok.injEq]
    refine ⟨v.requestId, rfl, v.identityId, rfl, v.desktopId, rfl, (), ⟨h.identity, h.desktop⟩,
      r.stanza, hstanza, key, hparse, v.expiresAtUnix, rfl, (), ⟨h.time, h.notExpired, h.lifetime⟩,
      v.callerHint, ⟨rfl, h.hint⟩, (), ⟨h.low, h.signature⟩, r.sessionPublicKey,
      ⟨v.sessionPublicKey, rfl, hsession⟩, v.nonce, rfl, ?_⟩
    obtain ⟨requestId, identityId, desktopId, session, stanza, nonce, expires, hint, bytes, digest⟩ :=
      r
    obtain ⟨rfl, rfl, rfl, -, -, -, -, rfl, rfl, rfl, rfl, rfl⟩ := hr
    rfl

end Ios

section Android

variable {J : Android.OfflineEnvelope.Provider} {javaKey : J.PublicKey}

theorem android_verify_eq_ok {domain payload : List Byte} {signature : Bytes 64} {u : Unit} :
    Android.OfflineEnvelope.verify J javaKey domain payload signature = .ok u ↔
      IsLowS signature ∧ J.verifies javaKey (domainInput domain payload)
        (Android.SignatureEncoding.compactToDer signature) = true := by
  rw [Android.OfflineEnvelope.verify, mapError_ok, Android.SignatureEncoding.verify,
    dif_pos signature.2]
  simp only [bind_eq_ok, ensure_eq_ok, exists_const, not_lt]
  rfl

theorem android_decodeCompressed_eq_ok {bytes : EncodedPublicKey} {key : J.PublicKey} :
    Android.OfflineEnvelope.decodeCompressed J bytes = .ok key ↔
      encodeCompressed (J.w key) = bytes := by
  rw [Android.OfflineEnvelope.decodeCompressed, mapError_ok,
    Android.TaggedRecipientCrypto.decodeCompressed_eq_ok, Subtype.ext_iff]
  exact eq_comm

theorem android_decodeStanza_eq_ok {item : Item} {stanza : Android.TaggedRecipientCrypto.Stanza} :
    Android.OfflineEnvelope.decodeStanza item = .ok stanza ↔
      item = stanzaItem ⟨stanza.tag, stanza.args, stanza.body⟩ ∧
      (1 ≤ stanza.args.length ∧ stanza.args.length ≤ 2) ∧ (utf8 stanza.tag).length ≤ 64 ∧
      (∀ s ∈ stanza.args, (utf8 s).length ≤ 128) ∧ stanza.body.length = 32 := by
  have htexts : ∀ {items : List Item} {texts : List String},
      items.mapM (Android.OfflineEnvelope.text 128) = .ok texts ↔
        items = texts.map .text ∧ ∀ s ∈ texts, (utf8 s).length ≤ 128 :=
    mapM_text fun item text => android_text_eq_ok
  constructor
  · intro h
    unfold Android.OfflineEnvelope.decodeStanza at h
    split at h
    · simp only [bind_eq_ok, ensure_eq_ok, exists_const, htexts, android_text_eq_ok,
        android_bytes_eq_ok, pure_eq_ok, Except.ok.injEq] at h
      obtain ⟨hcount, args, ⟨rfl, hargs⟩, tag, ⟨rfl, htag⟩, body, rfl, rfl⟩ := h
      exact ⟨rfl, by simpa using hcount, htag, hargs, body.2⟩
    · cases h
  · rintro ⟨rfl, hcount, htag, hargs, hbody⟩
    simp only [Android.OfflineEnvelope.decodeStanza, stanzaItem, bind_eq_ok, ensure_eq_ok,
      exists_const, htexts, android_text_eq_ok, android_bytes_eq_ok, pure_eq_ok, Except.ok.injEq,
      List.length_map]
    exact ⟨hcount, _, ⟨rfl, hargs⟩, _, ⟨rfl, htag⟩, ⟨stanza.body, hbody⟩, rfl, rfl⟩

theorem android_decodeHint_eq_ok {item : Item} {hint : Option String} :
    Android.OfflineEnvelope.decodeHint item = .ok hint ↔
      item = hintItem hint ∧ ∀ s ∈ hint, (utf8 s).length ≤ 64 := by
  have htext : (∃ text, Android.OfflineEnvelope.text 64 item = .ok text ∧ some text = hint) ↔
      ∃ text, (item = .text text ∧ (utf8 text).length ≤ 64) ∧ some text = hint := by
    simp only [android_text_eq_ok]
  cases item with
  | null => cases hint <;> simp [Android.OfflineEnvelope.decodeHint, hintItem]
  | _ =>
      simp only [Android.OfflineEnvelope.decodeHint, bind_eq_ok, pure_eq_ok, Except.ok.injEq,
        htext]
      cases hint <;> simp [hintItem]

variable (J) in
/-- What the phone keeps of a request's payload. -/
structure AndroidReads (v : UnwrapRequest) (q : Android.OfflineEnvelope.Request J) :
    Prop where
  requestId : q.requestId = v.requestId
  identityId : q.identityId = v.identityId
  desktopId : q.desktopId = v.desktopId
  session : encodeCompressed (J.w q.sessionPublicKey) = v.sessionPublicKey
  stanza : q.stanza = androidStanza v.recipientStanza
  nonce : q.nonce = v.nonce
  expires : q.expiresAtUnix.1 = v.expiresAtUnix.val
  hint : q.callerHint = v.callerHint

theorem android_decodeRequestPayload_eq_ok {payload : List Byte}
    {q : Android.OfflineEnvelope.Request J} :
    Android.OfflineEnvelope.decodeRequestPayload J payload = .ok q ↔ ∃ v : UnwrapRequest,
      payload = encodeRequest v ∧ payload.length ≤ 65536 ∧
      WellFormed v.recipientStanza.tag v.recipientStanza.args v.recipientStanza.body ∧
      (∀ s ∈ v.callerHint, (utf8 s).length ≤ 64) ∧ v.expiresAtUnix.val < 2 ^ 63 ∧
      AndroidReads J v q := by
  constructor
  · intro h
    simp only [Android.OfflineEnvelope.decodeRequestPayload, bind_eq_ok] at h
    obtain ⟨values, hvalues, _, hheader, h⟩ := h
    obtain ⟨hpayload, -, hsize⟩ := android_encode_of_strictArray hvalues
    split at h
    · have hitems := android_header_eq_ok.mp
        (show Android.OfflineEnvelope.header _ requestKind.val = .ok _ from hheader)
      simp only [bind_eq_ok, mapError_ok, android_decodeStanza_eq_ok, android_decodeHint_eq_ok,
        android_bytes_eq_ok, android_unsignedLong_eq_ok, pure_eq_ok, Except.ok.injEq] at h
      obtain ⟨stanza, ⟨rfl, -, -, -, -⟩, _, hparse, hint, ⟨rfl, hhint⟩, requestId, rfl, identity, rfl,
        desktop, rfl, compact, rfl, session, hsession, nonce, rfl, expires, ⟨seconds, rfl, hseconds,
        hexpires⟩, rfl⟩ := h
      obtain rfl := android_decodeCompressed_eq_ok.mp hsession
      let v : UnwrapRequest := ⟨requestId, identity, desktop, encodeCompressed (J.w session),
        ⟨stanza.tag, stanza.args, stanza.body⟩, nonce, ⟨seconds, hseconds.trans (by norm_num)⟩, hint⟩
      refine ⟨v, ?_, hsize, android_accepts.mp ⟨_, hparse⟩, hhint, hseconds, ?_⟩
      · rw [hpayload, hitems, ← encode_requestItems]
        rfl
      · exact ⟨rfl, rfl, rfl, rfl, rfl, rfl, hexpires, rfl⟩
    · cases h
  · rintro ⟨v, rfl, hsize, hwell, hhint, htime, hq⟩
    have hbounds : StanzaBounds v.recipientStanza := stanzaBounds hwell
    have hcount : 1 ≤ v.recipientStanza.args.length ∧ v.recipientStanza.args.length ≤ 2 := by
      have := hbounds.count
      omega
    have hread := android_strictArray_encode (J := J) (request_readable hcount.2 htime)
      (by rw [encode_requestItems]; exact hsize)
    rw [encode_requestItems] at hread
    obtain ⟨parsed, hparse⟩ := (android_accepts (J := J.toJca)).mpr hwell
    have hstanza : Android.OfflineEnvelope.decodeStanza (stanzaItem v.recipientStanza) =
        .ok q.stanza := by
      rw [android_decodeStanza_eq_ok, hq.stanza]
      exact ⟨rfl, hcount, hbounds.tag, hbounds.args, hbounds.body⟩
    have hheader : Android.OfflineEnvelope.header (requestItems v) requestKind.val = .ok () :=
      android_header_eq_ok.mpr rfl
    have hsession : Android.OfflineEnvelope.decodeCompressed J v.sessionPublicKey =
        .ok q.sessionPublicKey := android_decodeCompressed_eq_ok.mpr hq.session
    simp only [Android.OfflineEnvelope.decodeRequestPayload, bind_eq_ok]
    refine ⟨_, hread, (), hheader, ?_⟩
    simp only [requestItems, headerItems, List.cons_append, List.nil_append, bind_eq_ok, mapError_ok,
      android_decodeHint_eq_ok, android_bytes_eq_ok, android_unsignedLong_eq_ok, pure_eq_ok,
      Except.ok.injEq]
    refine ⟨q.stanza, hstanza, parsed, by rw [hq.stanza]; exact hparse, v.callerHint, ⟨rfl, hhint⟩,
      v.requestId, rfl, v.identityId, rfl, v.desktopId, rfl, v.sessionPublicKey, rfl,
      q.sessionPublicKey, hsession, v.nonce, rfl, q.expiresAtUnix,
      ⟨v.expiresAtUnix.val, rfl, htime, hq.expires⟩, ?_⟩
    obtain ⟨requestId, identityId, desktopId, session, stanza, nonce, expires, hint⟩ := q
    obtain ⟨rfl, rfl, rfl, -, -, rfl, -, rfl⟩ := hq
    rfl

theorem android_validateTime_eq_ok {expires time : Android.Long} (htime : time.1 = now.val)
    {u : Unit} : Android.OfflineEnvelope.validateTime expires time = .ok u ↔
      (now.val : ℤ) ≤ expires.1 ∧ expires.1 ≤ now.val + 300 := by
  rw [Android.OfflineEnvelope.validateTime, ensure_eq_ok, htime]
  have hle : time ≤ expires ↔ (now.val : ℤ) ≤ expires.1 := by
    rw [← htime]
    exact Iff.rfl
  rw [hle]
  omega

/-- The verifier on Android accepts exactly the requests that pass. -/
theorem android_verifyRequest_eq_ok {time : Android.Long} (htime : time.1 = now.val)
    {r : Android.OfflineEnvelope.VerifiedRequest J} :
    Android.OfflineEnvelope.verifyRequest J b desktopId identityId javaKey time = .ok r ↔
      ∃ request, Passing (fun message signature => J.verifies javaKey message
          (Android.SignatureEncoding.compactToDer signature)) desktopId identityId now b request ∧
        AndroidReads J request.payload r.request ∧ r.signedBytes = b ∧
        r.digest = Android.OfflineEnvelope.digest J requestDigest b := by
  simp only [Android.OfflineEnvelope.verifyRequest, bind_eq_ok, ensure_eq_ok, exists_const,
    pure_eq_ok, Except.ok.injEq, android_validateTime_eq_ok htime]
  constructor
  · rintro ⟨⟨payload, signature⟩, hsigned, q, hq, rfl, rfl, ⟨hlive, hlifetime⟩, _, hverify, rfl⟩
    obtain ⟨rfl, hsize⟩ := android_decodeSigned_eq_ok.mp hsigned
    obtain ⟨v, rfl, -, hwell, hhint, htime, hreads⟩ := android_decodeRequestPayload_eq_ok.mp hq
    obtain ⟨hlow, hverify⟩ := android_verify_eq_ok.mp hverify
    rw [hreads.expires] at hlive hlifetime
    refine ⟨⟨v, signature⟩, ⟨rfl, hsize, ⟨_, J.w_onCurve _, hreads.session.symm⟩, hwell, hhint,
      hreads.desktopId.symm, hreads.identityId.symm, by exact_mod_cast hlive,
      by exact_mod_cast hlifetime, htime, hlow, hverify⟩, hreads, rfl, rfl⟩
  · rintro ⟨⟨v, signature⟩, ⟨rfl, hsize, h⟩, hreads, hbytes, hdigest⟩
    have hpayload : (encodeRequest v).length ≤ 65536 := (payload_length_le _ signature).trans hsize
    refine ⟨⟨encodeRequest v, signature⟩, android_decodeSigned_eq_ok.mpr ⟨rfl, hsize⟩, r.request,
      android_decodeRequestPayload_eq_ok.mpr ⟨v, rfl, hpayload, h.stanza, h.hint, h.time, hreads⟩,
      hreads.desktopId.trans h.desktop, hreads.identityId.trans h.identity, ?_,
      (), android_verify_eq_ok.mpr ⟨h.low, h.signature⟩, ?_⟩
    · have hlive := h.notExpired
      have hlifetime := h.lifetime
      rw [hreads.expires]
      exact ⟨by exact_mod_cast hlive, by exact_mod_cast hlifetime⟩
    · obtain ⟨q, signedBytes, digest⟩ := r
      obtain rfl := hbytes
      obtain rfl := hdigest
      rfl

end Android

section Agreement

/-- The three platforms hash alike, and accept the same signatures under keys of one point. -/
structure SameVerifiers (C : Crates) (K : Ios.CryptoKit) (J : Android.OfflineEnvelope.Provider) :
    Prop where
  iosHash : K.sha256 = C.sha256
  androidHash : J.sha256 = C.sha256
  iosVerify : ∀ (key : C.PublicKey) (kitKey : K.PublicKey),
    K.x963Representation kitKey = C.uncompressedPoint key → ∀ message signature,
      K.isValidSignature kitKey message signature = C.verifyPrehash key (C.sha256 message) signature
  androidVerify : ∀ (key : C.PublicKey) (javaKey : J.PublicKey),
    C.uncompressedPoint key = encodeUncompressed (J.w javaKey) → ∀ message signature,
      J.verifies javaKey message (Android.SignatureEncoding.compactToDer signature) =
        C.verifyPrehash key (C.sha256 message) signature

theorem ofTable_sameVerifiers (t : CryptoTable) :
    SameVerifiers (Crates.ofTable t) (kitOfTable t) (providerOfTable t) := by
  refine ⟨rfl, rfl, ?_, ?_⟩
  · intro key kitKey hpoint message signature
    obtain rfl : kitKey = key := uncompressed_injective hpoint
    rfl
  · intro key javaKey hpoint message signature
    obtain rfl : key = javaKey := uncompressed_injective hpoint
    exact tableVerifyDer_compactToDer t _ _ _

variable {C : Crates} {m : TextMinicbor} {K : Ios.CryptoKit}
  {J : Android.OfflineEnvelope.Provider}

private theorem exists_ios (hK : KitPoints K)
    (h : Passing verifies desktopId identityId now b request) :
    ∃ r, IosReads K request r := by
  obtain ⟨-, -, h⟩ := h
  obtain ⟨point, hpoint, hsession⟩ := h.session
  obtain ⟨key, hkey⟩ := hK.isKey point hpoint
  have hbody : request.payload.recipientStanza.body.length = 32 := (stanzaBounds h.stanza).body
  exact ⟨⟨_, _, _, key, ⟨_, _, ⟨_, hbody⟩⟩, _, _, _, _, _⟩, rfl, rfl, rfl,
    (compressed_of_point hkey).trans hsession.symm, rfl, rfl, rfl, rfl, rfl, rfl, rfl, rfl⟩

private theorem exists_android_request (h : Passing verifies desktopId identityId now b request) :
    ∃ q, AndroidReads J request.payload q := by
  obtain ⟨-, -, h⟩ := h
  obtain ⟨point, hpoint, hsession⟩ := h.session
  obtain ⟨key, rfl⟩ := exists_android J.toJca hpoint
  have htime := h.time
  exact ⟨⟨_, _, _, key, _, _, ⟨request.payload.expiresAtUnix.val, by omega, by omega⟩, _⟩, rfl, rfl,
    rfl, hsession.symm, rfl, rfl, rfl, rfl⟩

theorem decode_of_checkRequest {pairing : PairingRecord} {digest : ProtocolDigest}
    (h : checkRequest C request pairing now = .ok digest) :
    SignedUnwrapRequest.decode C m (SignedUnwrapRequest.encode request) = .ok request := by
  have hkind : MessageKind.request.Valid C request.payload := (checkRequest_eq_ok.mp h).1
  exact MessageKind.decode_encode hkind

section Verifiers

variable {pairing : PairingRecord} {key : C.PublicKey} {kitKey : K.PublicKey} {javaKey : J.PublicKey}
  {time : Android.Long}

private theorem iosVerify_eq (hsame : SameVerifiers C K J)
    (hkitKey : K.x963Representation kitKey = C.uncompressedPoint key) :
    K.isValidSignature kitKey = fun message signature =>
      C.verifyPrehash key (C.sha256 message) signature :=
  funext fun message => funext (hsame.iosVerify key kitKey hkitKey message)

private theorem androidVerify_eq (hsame : SameVerifiers C K J)
    (hjavaKey : C.uncompressedPoint key = encodeUncompressed (J.w javaKey)) :
    (fun message signature => J.verifies javaKey message
      (Android.SignatureEncoding.compactToDer signature)) = fun message signature =>
        C.verifyPrehash key (C.sha256 message) signature :=
  funext fun message => funext (hsame.androidVerify key javaKey hjavaKey message)

private theorem ios_digest (hsame : SameVerifiers C K J) :
    Ios.digest K requestDigest b = hash C requestDigest b := by
  rw [Ios.digest, hsame.iosHash]
  rfl

private theorem android_digest (hsame : SameVerifiers C K J) :
    Android.OfflineEnvelope.digest J requestDigest b = hash C requestDigest b := by
  rw [Android.OfflineEnvelope.digest, hsame.androidHash]
  rfl

variable (hC : CratePoints C) (hsame : SameVerifiers C K J)
  (hkey : pairing.desktopSigningPublicKey = encodePublic C key)

include hC hsame hkey

/-- What the desktop's verifier accepts the phones accept. -/
theorem ios_verifies (hK : KitPoints K)
    (hkitKey : K.x963Representation kitKey = C.uncompressedPoint key) {digest : ProtocolDigest}
    (hdecode : SignedUnwrapRequest.decode C m b = .ok request)
    (hcheck : checkRequest C request pairing now = .ok digest) :
    ∃ r, Ios.verifyRequest K b pairing.desktopId pairing.identityId kitKey now = .ok r ∧
      IosReads K request r ∧ r.digest = digest := by
  obtain ⟨hpass, rfl⟩ := (desktop_accepts_iff hC hkey).mp ⟨hdecode, hcheck⟩
  obtain ⟨r, hr⟩ := exists_ios hK hpass
  have hios := iosVerify_eq hsame hkitKey
  refine ⟨r, (ios_verifyRequest_eq_ok hK).mpr ⟨request, hios ▸ hpass, hr⟩, hr, ?_⟩
  rw [hr.digest, ← hpass.1, ios_digest hsame]

theorem android_verifies
    (hjavaKey : C.uncompressedPoint key = encodeUncompressed (J.w javaKey))
    (htime : time.1 = now.val) {digest : ProtocolDigest}
    (hdecode : SignedUnwrapRequest.decode C m b = .ok request)
    (hcheck : checkRequest C request pairing now = .ok digest) :
    ∃ r, Android.OfflineEnvelope.verifyRequest J b pairing.desktopId pairing.identityId
        javaKey time = .ok r ∧
      AndroidReads J request.payload r.request ∧ r.signedBytes = b ∧ r.digest = digest := by
  obtain ⟨hpass, rfl⟩ := (desktop_accepts_iff hC hkey).mp ⟨hdecode, hcheck⟩
  obtain ⟨q, hq⟩ := exists_android_request (J := J) hpass
  have handroid := androidVerify_eq hsame hjavaKey
  exact ⟨⟨q, b, _⟩, (android_verifyRequest_eq_ok htime).mpr ⟨request, handroid ▸ hpass, hq, rfl, rfl⟩,
    hq, rfl, android_digest hsame⟩

end Verifiers

/-- The phones verify exactly the requests that the desktop's own verifier accepts, with the same
digest, and read its fields. -/
theorem request_agreement (hC : CratePoints C) (hK : KitPoints K) (hsame : SameVerifiers C K J)
    {pairing : PairingRecord} {key : C.PublicKey} {kitKey : K.PublicKey} {javaKey : J.PublicKey}
    (hkey : pairing.desktopSigningPublicKey = encodePublic C key)
    (hkitKey : K.x963Representation kitKey = C.uncompressedPoint key)
    (hjavaKey : C.uncompressedPoint key = encodeUncompressed (J.w javaKey))
    {time : Android.Long} (htime : time.1 = now.val) :
    (∀ request digest, SignedUnwrapRequest.decode C m b = .ok request →
      checkRequest C request pairing now = .ok digest →
      (∃ r, Ios.verifyRequest K b pairing.desktopId pairing.identityId kitKey now = .ok r ∧
        IosReads K request r ∧ r.digest = digest) ∧
      ∃ r, Android.OfflineEnvelope.verifyRequest J b pairing.desktopId pairing.identityId
          javaKey time = .ok r ∧
        AndroidReads J request.payload r.request ∧ r.signedBytes = b ∧ r.digest = digest) ∧
    (∀ r, Ios.verifyRequest K b pairing.desktopId pairing.identityId kitKey now = .ok r →
      ∃ request, SignedUnwrapRequest.decode C m b = .ok request ∧
        checkRequest C request pairing now = .ok r.digest ∧ IosReads K request r) ∧
    ∀ r, Android.OfflineEnvelope.verifyRequest J b pairing.desktopId pairing.identityId
        javaKey time = .ok r →
      ∃ request, SignedUnwrapRequest.decode C m b = .ok request ∧
        checkRequest C request pairing now = .ok r.digest ∧
        AndroidReads J request.payload r.request ∧ r.signedBytes = b := by
  refine ⟨?_, ?_, ?_⟩
  · intro request digest hdecode hcheck
    exact ⟨ios_verifies hC hsame hkey hK hkitKey hdecode hcheck,
      android_verifies hC hsame hkey hjavaKey htime hdecode hcheck⟩
  · intro r hverify
    obtain ⟨request, hpass, hr⟩ := (ios_verifyRequest_eq_ok hK).mp hverify
    rw [iosVerify_eq hsame hkitKey] at hpass
    have hdigest : r.digest = hash C requestDigest b := by
      rw [hr.digest, ← hpass.1, ios_digest hsame]
    obtain ⟨hdecode, hcheck⟩ := (desktop_accepts_iff (m := m) hC hkey).mpr ⟨hpass, hdigest⟩
    exact ⟨request, hdecode, hcheck, hr⟩
  · intro r hverify
    obtain ⟨request, hpass, hq, hbytes, hdigest⟩ := (android_verifyRequest_eq_ok htime).mp hverify
    rw [androidVerify_eq hsame hjavaKey] at hpass
    obtain ⟨hdecode, hcheck⟩ := (desktop_accepts_iff (m := m) hC hkey).mpr
      ⟨hpass, hdigest.trans (android_digest hsame)⟩
    exact ⟨request, hdecode, hcheck, hq, hbytes⟩

/-- The sample request, verified by both phones. -/
theorem request_agreement_sample :
    (∃ r, Ios.verifyRequest (kitOfTable sampleExchange) sampleVerifiedRequest.encode
      samplePairing.desktopId samplePairing.identityId desktopSigningPoint 1000 = .ok r ∧
      r.digest = sampleVerifiedRequest.digest) ∧
    ∃ r, Android.OfflineEnvelope.verifyRequest (providerOfTable sampleExchange)
      sampleVerifiedRequest.encode samplePairing.desktopId samplePairing.identityId
      desktopSigningPoint ⟨1000, by decide, by decide⟩ = .ok r ∧
      r.digest = sampleVerifiedRequest.digest := by
  obtain ⟨-, hcheck⟩ := checkRequest_of_createRequest sampleRequestSigner_ideal sampleRequest_created
  have hdecode : SignedUnwrapRequest.decode (Crates.ofTable sampleExchange) .definite
      sampleVerifiedRequest.encode = .ok sampleVerifiedRequest.signed := decode_of_checkRequest hcheck
  have hios : (kitOfTable sampleExchange).x963Representation desktopSigningPoint =
      (Crates.ofTable sampleExchange).uncompressedPoint desktopSigningPoint := rfl
  have handroid : (Crates.ofTable sampleExchange).uncompressedPoint desktopSigningPoint =
      encodeUncompressed ((providerOfTable sampleExchange).w desktopSigningPoint) := rfl
  have htime : (⟨1000, by decide, by decide⟩ : Android.Long).1 = ((1000 : U64).val : ℤ) := rfl
  have hkey : samplePairing.desktopSigningPublicKey =
      encodePublic (Crates.ofTable sampleExchange) desktopSigningPoint :=
    (encodePublic_ofTable sampleExchange _).symm
  obtain ⟨haccepted, -⟩ := request_agreement (ofTable_points sampleExchange)
    (kitOfTable_points sampleExchange) (ofTable_sameVerifiers sampleExchange) hkey hios handroid htime
  obtain ⟨⟨r, hr, -, hdigest⟩, ⟨q, hq, -, -, hdigest'⟩⟩ := haccepted _ _ hdecode hcheck
  exact ⟨⟨r, hr, hdigest⟩, ⟨q, hq, hdigest'⟩⟩

end Agreement

end AgePluginPhone.Phone.Envelope
