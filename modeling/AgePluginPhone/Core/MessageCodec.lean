import AgePluginPhone.Core.Messages

/-!
# Canonical decoding

Each decoder reads its payload back from the encoding, and a message decodes only from its own
encoding. The bounds checked on reading are those the encoder's callers establish.
-/

namespace AgePluginPhone.Core

open Library

section Reading

variable {m : TextMinicbor}

theorem required_reads {α : Type} {reader : List Byte → Option (α × List Byte)} {bytes : List Byte}
    {a : α} (h : ∀ rest, reader (bytes ++ rest) = some (a, rest)) :
    Reads (required reader) bytes a := by
  intro rest
  simp [required, h rest]

theorem check_reads {α : Type} {result : Except ProtocolError α} {a : α} (h : result = .ok a) :
    Reads (Decode.check result) [] a := by
  intro rest
  rw [h]
  rfl

theorem arr_reads {n : ℕ} (hn : n < 2 ^ 64) : Reads (arr m n) (encodeArray n) () := by
  apply (required_reads (m.array_encodeArray n · hn)).bind_end
  exact check_reads (ensure_true _ rfl)

theorem u16_reads (n : U16) : Reads (required m.u16) (encodeUnsigned n) n :=
  required_reads (m.u16_encodeUnsigned n)

theorem u64_reads (n : U64) : Reads (required m.u64) (encodeUnsigned n) n :=
  required_reads (m.u64_encodeUnsigned n)

theorem bytes_reads {b : List Byte} (hb : b.length < 2 ^ 64) :
    Reads (required m.bytes) (encodeBytes b) b :=
  required_reads (m.bytes_encodeBytes b · hb)

theorem hdr_reads {n : ℕ} (hn : n < 2 ^ 64) (kind : U16) :
    Reads (hdr m n kind) (header n kind) () := by
  apply (arr_reads hn).bind
  apply (u16_reads protocolVersion).bind
  apply (check_reads (ensure_true _ rfl)).bind_nil
  apply (u16_reads kind).bind
  apply (check_reads (ensure_true _ rfl)).bind_nil
  apply (u16_reads algorithmSuite).bind_end
  exact check_reads (ensure_true _ rfl)

theorem fixedBytes_reads {n : ℕ} (hn : n < 2 ^ 64) (b : Bytes n) :
    Reads (fixedBytes m n) (encodeBytes b) b := by
  have hread := bytes_reads (m := m) (b := b.1) (by rw [b.2]; exact hn)
  apply hread.bind_end
  rw [dif_pos b.2]
  exact Reads.pure b

theorem text_reads {max : ℕ} (hmax : max < 2 ^ 64) {s : String} (hs : (utf8 s).length ≤ max) :
    Reads (text m max) (encodeStr s) s := by
  have hread : Reads (required m.str) (encodeStr s) s :=
    required_reads (m.str_encodeStr s · (lt_of_le_of_lt hs hmax))
  apply hread.bind_end
  apply (check_reads (ensure_true _ hs)).bind_nil
  exact Reads.pure s

theorem texts_reads {max : ℕ} (hmax : max < 2 ^ 64) {args : List String}
    (h : ∀ s ∈ args, (utf8 s).length ≤ max) :
    Reads (texts m max args.length) (encodeArgs args) args := by
  induction args with
  | nil => exact Reads.pure []
  | cons s args ih =>
      obtain ⟨hhead, htail⟩ := List.forall_mem_cons.mp h
      rw [encodeArgs, List.flatMap_cons]
      apply (text_reads hmax hhead).bind
      apply (ih htail).bind_end
      exact Reads.pure _

theorem hint_reads {hint : Option String} (h : ∀ s ∈ hint, (utf8 s).length ≤ 64) :
    Reads (decodeHint m) (encodeHint hint) hint := by
  cases hint with
  | none =>
      intro rest
      have hnull := required_reads m.null_encodeNull rest
      change (do let kind ← (okOr (m.datatype (encodeNull ++ rest)) ProtocolError.malformed).map _; _) = _
      rw [m.datatype_encodeNull]
      change (required m.null (encodeNull ++ rest) >>= fun r => .ok (none, r.2)) = _
      rw [hnull]
      rfl
  | some s =>
      intro rest
      have hlen := h s rfl
      have htext := text_reads (m := m) (show 64 < 2 ^ 64 by decide) hlen rest
      change (do let kind ← (okOr (m.datatype (encodeStr s ++ rest)) ProtocolError.malformed).map _; _) = _
      rw [m.datatype_encodeStr s rest (lt_of_le_of_lt hlen (by decide))]
      change (text m 64 (encodeStr s ++ rest) >>= fun r => .ok (some r.1, r.2)) = _
      rw [htext]
      rfl

/-- The bounds the stanza decoder checks. -/
structure StanzaBounds (v : TaggedStanza) : Prop where
  tag : (utf8 v.tag).length ≤ 64
  count : v.args.length = 1 ∨ v.args.length = 2
  args : ∀ s ∈ v.args, (utf8 s).length ≤ 128
  body : v.body.length = 32

theorem stanza_reads {v : TaggedStanza} (h : StanzaBounds v) :
    Reads (decodeStanza m) (encodeStanza v) v := by
  have hcount : v.args.length < 2 ^ 64 := by
    have := h.count
    omega
  have hbody : v.body.length < 2 ^ 64 := by
    have := h.body
    omega
  apply (arr_reads (by decide)).bind
  apply (text_reads (by decide) h.tag).bind
  apply (required_reads (m.array_encodeArray v.args.length · hcount)).bind
  apply Reads.bind_nil (a := ())
  · apply check_reads
    apply ensure_true
    simpa using h.count
  · apply (texts_reads (by decide) h.args).bind
    apply (bytes_reads hbody).bind_end
    apply (check_reads (ensure_true _ h.body)).bind_nil
    exact Reads.pure v

theorem offer_reads {v : PairingOffer} (h : (utf8 v.desktopLabel).length ≤ 64) :
    Reads (offerFields m) (encodeOffer v) v := by
  apply (hdr_reads (by decide) offerKind).bind
  apply (fixedBytes_reads (by decide) v.desktopId).bind
  apply (text_reads (by decide) h).bind
  apply (fixedBytes_reads (by decide) v.desktopSigningPublicKey).bind
  apply (fixedBytes_reads (by decide) v.desktopSelectionPublicKey).bind
  apply (fixedBytes_reads (by decide) v.nonce).bind_end
  exact Reads.pure v

theorem pairingResponse_reads {v : PairingResponse} (h : (utf8 v.recipient).length ≤ 160) :
    Reads (pairingResponseFields m) (encodePairingResponse v) v := by
  apply (hdr_reads (by decide) pairingResponseKind).bind
  apply (fixedBytes_reads (by decide) v.identityId).bind
  apply (text_reads (by decide) h).bind
  apply (fixedBytes_reads (by decide) v.phoneSigningPublicKey).bind
  apply (fixedBytes_reads (by decide) v.offerDigest).bind
  apply (fixedBytes_reads (by decide) v.nonce).bind_end
  exact Reads.pure v

theorem request_reads {v : UnwrapRequest} (hstanza : StanzaBounds v.recipientStanza)
    (hhint : ∀ s ∈ v.callerHint, (utf8 s).length ≤ 64) :
    Reads (requestFields m) (encodeRequest v) v := by
  apply (hdr_reads (by decide) requestKind).bind
  apply (fixedBytes_reads (by decide) v.requestId).bind
  apply (fixedBytes_reads (by decide) v.identityId).bind
  apply (fixedBytes_reads (by decide) v.desktopId).bind
  apply (fixedBytes_reads (by decide) v.sessionPublicKey).bind
  apply (stanza_reads hstanza).bind
  apply (fixedBytes_reads (by decide) v.nonce).bind
  apply (u64_reads v.expiresAtUnix).bind
  apply (hint_reads hhint).bind_end
  exact Reads.pure v

theorem response_reads (v : UnwrapResponse) : Reads (responseFields m) (encodeResponse v) v := by
  have hassoc : encodeResponse v = header 10 responseKind ++ (encodeBytes v.requestId ++
      (encodeBytes v.requestDigest ++ (encodeBytes v.identityId ++ (encodeBytes v.desktopId ++
        (encodeBytes v.phoneSessionPublicKey ++ (encodeBytes v.nonce ++
          encodeBytes v.encryptedFileKey)))))) := by
    simp [encodeResponse, encodeResponseFields]
  rw [hassoc]
  apply (hdr_reads (by decide) responseKind).bind
  apply (fixedBytes_reads (by decide) v.requestId).bind
  apply (fixedBytes_reads (by decide) v.requestDigest).bind
  apply (fixedBytes_reads (by decide) v.identityId).bind
  apply (fixedBytes_reads (by decide) v.desktopId).bind
  apply (fixedBytes_reads (by decide) v.phoneSessionPublicKey).bind
  apply (fixedBytes_reads (by decide) v.nonce).bind
  apply (fixedBytes_reads (by decide) v.encryptedFileKey).bind_end
  exact Reads.pure v

end Reading

section Validation

variable {C : Crates}

theorem publicKey_eq_ok {bytes : EncodedPublicKey} {key : C.PublicKey} :
    publicKey C bytes = .ok key ↔ bytes = encodePublic C key := by
  simp only [publicKey, bind_eq_ok, ensure_eq_ok, okOr_eq_ok, pure_eq_ok, exists_const,
    Except.ok.injEq]
  constructor
  · intro hparts
    obtain ⟨_, found, _, hbytes, hkey⟩ := hparts
    rw [← hbytes, hkey]
  · intro hbytes
    subst hbytes
    exact ⟨encodePublic_isCompressed key, key, C.fromSec1Bytes_compressed key, rfl, rfl⟩

theorem mapError_ok {α Failure Failure' : Type} {result : Except Failure α} {a : α}
    {failure : Failure → Failure'} : result.mapError failure = .ok a ↔ result = .ok a := by
  cases result <;> simp [Except.mapError]

theorem label_eq_ok {value : String} {u : Unit} : label value = .ok u ↔ (utf8 value).length ≤ 64 :=
  ensure_eq_ok

theorem validateRequest_eq_ok {v : UnwrapRequest} {u : Unit} :
    validateRequest C v = .ok u ↔ v.expiresAtUnix.val ≤ maxProtocolTime ∧
      (∃ key, v.sessionPublicKey = encodePublic C key) ∧ ConformingStanza C v.recipientStanza ∧
      ∀ hint ∈ v.callerHint, (utf8 hint).length ≤ 64 := by
  simp only [validateRequest, bind_eq_ok, ensure_eq_ok, exists_const, publicKey_eq_ok, mapError_ok,
    validateStanza_eq_ok]
  cases v.callerHint with
  | none => simp
  | some hint => simp [label_eq_ok]

theorem identityPublic_eq_ok {recipient : String} {bytes : EncodedPublicKey} :
    identityPublic C recipient = .ok bytes ↔
      ∃ key, recipient = Recipient.toString C key ∧ bytes = encodePublic C key := by
  simp only [identityPublic, bind_eq_ok, mapError_ok, Recipient.parse_eq_ok, pure_eq_ok,
    Except.ok.injEq, eq_comm (b := bytes)]

theorem validatePairingResponse_eq_ok {v : PairingResponse} {u : Unit} :
    validatePairingResponse C v = .ok u ↔
      ∃ identity, v.recipient = Recipient.toString C identity ∧
        (∃ signing, C.fromSec1Bytes v.phoneSigningPublicKey = some signing) ∧
        encodePublic C identity ≠ v.phoneSigningPublicKey := by
  simp only [validatePairingResponse, bind_eq_ok, ensure_eq_ok, verifying, okOr_eq_ok,
    identityPublic_eq_ok]
  constructor
  · intro hparts
    obtain ⟨_, ⟨identity, hrecipient, hbytes⟩, signing, hsigning, hne⟩ := hparts
    subst hbytes
    exact ⟨identity, hrecipient, ⟨signing, hsigning⟩, hne⟩
  · intro hparts
    obtain ⟨identity, hrecipient, ⟨signing, hsigning⟩, hne⟩ := hparts
    exact ⟨_, ⟨identity, hrecipient, rfl⟩, signing, hsigning, hne⟩

theorem ConformingStanza.bounds {v : TaggedStanza} (h : ConformingStanza C v) : StanzaBounds v := by
  have hephemeral (key : C.PublicKey) : (utf8 (Base64.encode (encodePublic C key))).length = 44 := by
    rw [Base64.encode_length, (encodePublic C key).2]
  cases h with
  | v1 ephemeral hbody =>
      refine ⟨show (utf8 stanzaTag).length ≤ 64 by decide +kernel, Or.inl rfl, ?_, hbody⟩
      intro s hs
      rw [List.mem_singleton.mp hs, hephemeral]
      decide
  | @v2 body selection ephemeral hbody hselection =>
      have hselector : (utf8 (Base64.encode selection)).length = 43 := by
        rw [Base64.encode_length, hselection]
        rfl
      refine ⟨show (utf8 stanzaTagV2).length ≤ 64 by decide +kernel, Or.inr rfl, ?_, hbody⟩
      intro s hs
      rcases List.mem_cons.mp hs with hs | hs
      · rw [hs, hephemeral]
        decide
      · rw [List.mem_singleton.mp hs, hselector]
        decide
  | @tagged body tag enc hbody htag hhead =>
      have htagged : (utf8 (Base64.encode tag)).length = 6 := by
        rw [Base64.encode_length, htag]
      have hpoint : (utf8 (Base64.encode (C.uncompressedPoint enc))).length = 87 := by
        rw [Base64.encode_length, (C.uncompressedPoint enc).2]
      refine ⟨show (utf8 Tag.stanzaTag).length ≤ 64 by decide +kernel, Or.inr rfl, ?_, hbody⟩
      intro s hs
      rcases List.mem_cons.mp hs with hs | hs
      · rw [hs, htagged]
        decide
      · rw [List.mem_singleton.mp hs, hpoint]
        decide

end Validation

section Canonical

variable {C : Crates} {m : TextMinicbor}

theorem decodeCanonical_encode {α : Type} {decoder : Decode α} {encode : α → List Byte} {v : α}
    (h : Reads decoder (encode v) v) : decodeCanonical decoder encode (encode v) = .ok v := by
  simp [decodeCanonical, h.run, ensure]

theorem encode_of_decodeCanonical {α : Type} {decoder : Decode α} {encode : α → List Byte}
    {b : List Byte} {v : α} (h : decodeCanonical decoder encode b = .ok v) :
    b = encode v ∧ ∃ rest, decoder b = .ok (v, rest) := by
  simp only [decodeCanonical, bind_eq_ok, ensure_eq_ok, exists_const, pure_eq_ok,
    Except.ok.injEq] at h
  obtain ⟨⟨found, rest⟩, hrun, _, hb, hv⟩ := h
  simp only at hv hb
  subst hv
  exact ⟨hb, rest, hrun⟩

theorem check_returns {α : Type} {result : Except ProtocolError α} (condition : α → Prop)
    (h : ∀ a, result = .ok a → condition a) : Returns (Decode.check result) condition := by
  intro input a rest hrun
  cases result with
  | error failure => exact absurd hrun (by intro hbad; cases hbad)
  | ok found =>
      cases hrun
      exact h _ rfl

theorem text_returns (max : ℕ) : Returns (text m max) fun s => (utf8 s).length ≤ max := by
  refine Returns.bind (Returns.trivial _) fun s _ => ?_
  refine Returns.bind (check_returns (fun _ => (utf8 s).length ≤ max) fun _ h => ensure_eq_ok.mp h) ?_
  intro _ hle
  exact Returns.pure hle

theorem offer_returns : Returns (offerFields m) fun v => (utf8 v.desktopLabel).length ≤ 64 := by
  refine Returns.bind (Returns.trivial _) fun _ _ => ?_
  refine Returns.bind (Returns.trivial _) fun desktopId _ => ?_
  refine Returns.bind (text_returns 64) fun desktopLabel hlabel => ?_
  refine Returns.bind (Returns.trivial _) fun signing _ => ?_
  refine Returns.bind (Returns.trivial _) fun selection _ => ?_
  refine Returns.bind (Returns.trivial _) fun nonce _ => ?_
  exact Returns.pure hlabel

theorem decodeOffer_eq_ok {b : List Byte} {v : PairingOffer} :
    decodeOffer m b = .ok v ↔ b = encodeOffer v ∧ (utf8 v.desktopLabel).length ≤ 64 := by
  constructor
  · intro h
    obtain ⟨hb, rest, hrun⟩ := encode_of_decodeCanonical h
    exact ⟨hb, offer_returns b v rest hrun⟩
  · intro hparts
    obtain ⟨hb, hlabel⟩ := hparts
    rw [hb]
    exact decodeCanonical_encode (offer_reads hlabel)

private theorem decode_validated_eq_ok {α β : Type} {decoder : Decode α} {encode : α → List Byte}
    (validate : α → Except ProtocolError β) {b : List Byte} {v : α}
    (hreads : ∀ v a, validate v = .ok a → Reads decoder (encode v) v) :
    (do
      let v ← decodeCanonical decoder encode b
      let _ ← validate v
      return v) = .ok v ↔ b = encode v ∧ ∃ a, validate v = .ok a := by
  simp only [bind_eq_ok, pure_eq_ok, Except.ok.injEq]
  constructor
  · intro hparts
    obtain ⟨found, hdecode, a, hvalid, hv⟩ := hparts
    subst hv
    exact ⟨(encode_of_decodeCanonical hdecode).1, a, hvalid⟩
  · intro hparts
    obtain ⟨hb, a, hvalid⟩ := hparts
    rw [hb]
    exact ⟨v, decodeCanonical_encode (hreads v a hvalid), a, hvalid, rfl⟩

theorem decodePairingResponse_eq_ok {b : List Byte} {v : PairingResponse} :
    decodePairingResponse C m b = .ok v ↔
      b = encodePairingResponse v ∧ validatePairingResponse C v = .ok () := by
  refine (decode_validated_eq_ok (validatePairingResponse C) fun v a hvalid => ?_).trans
    (and_congr_right fun _ => ⟨fun h => h.elim fun _ => id, fun h => ⟨(), h⟩⟩)
  obtain ⟨identity, hrecipient, -⟩ := validatePairingResponse_eq_ok.mp hvalid
  apply pairingResponse_reads
  rw [hrecipient, Recipient.toString_length]
  decide

theorem decodeRequest_eq_ok {b : List Byte} {v : UnwrapRequest} :
    decodeRequest C m b = .ok v ↔ b = encodeRequest v ∧ validateRequest C v = .ok () := by
  refine (decode_validated_eq_ok (validateRequest C) fun v a hvalid => ?_).trans
    (and_congr_right fun _ => ⟨fun h => h.elim fun _ => id, fun h => ⟨(), h⟩⟩)
  obtain ⟨-, -, hstanza, hhint⟩ := validateRequest_eq_ok.mp hvalid
  exact request_reads hstanza.bounds hhint

theorem decodeResponse_eq_ok {b : List Byte} {v : UnwrapResponse} :
    decodeResponse C m b = .ok v ↔
      b = encodeResponse v ∧ ∃ key, v.phoneSessionPublicKey = encodePublic C key := by
  refine (decode_validated_eq_ok (fun v => publicKey C v.phoneSessionPublicKey)
    fun v _ _ => response_reads v).trans (and_congr_right fun _ => ?_)
  simp only [publicKey_eq_ok]

end Canonical

section Envelopes

variable {C : Crates} {m : TextMinicbor}

theorem signed_reads {payload : List Byte} (h : payload.length < 2 ^ 64) (signature : Bytes 64) :
    Reads (do
      arr m 2
      let payload ← required m.bytes
      let signature ← fixedBytes m 64
      return (payload, signature) : Decode (List Byte × Bytes 64))
      (signed payload signature) (payload, signature) := by
  apply (arr_reads (by decide)).bind
  apply (bytes_reads h).bind
  apply (fixedBytes_reads (by decide) signature).bind_end
  exact Reads.pure _

theorem signed_ne_nil (payload : List Byte) (signature : Bytes 64) : signed payload signature ≠ [] := by
  simp [signed, encodeArray, Cbor.head_ne_nil]

theorem payload_length_le (payload : List Byte) (signature : Bytes 64) :
    payload.length ≤ (signed payload signature).length := by
  simp only [signed, encodeBytes, List.length_append]
  omega

theorem decodeSigned_signed {payload : List Byte} {signature : Bytes 64}
    (h : (signed payload signature).length ≤ maxSignedMessageBytes) :
    decodeSigned m (signed payload signature) = .ok (payload, signature) := by
  have hpayload : payload.length < 2 ^ 64 := by
    have hle := (payload_length_le payload signature).trans h
    exact lt_of_le_of_lt hle (by decide)
  have hguard := ensure_true ProtocolError.malformed (And.intro (signed_ne_nil payload signature) h)
  rw [decodeSigned, hguard, ok_bind, (signed_reads hpayload signature).run]
  rfl

theorem decodeSigned_length {b payload : List Byte} {signature : Bytes 64}
    (h : decodeSigned m b = .ok (payload, signature)) : b.length ≤ maxSignedMessageBytes := by
  simp only [decodeSigned, bind_eq_ok, ensure_eq_ok, exists_const] at h
  exact h.1.2

/-- A message decodes exactly from its own encoding, within the size limit and with a valid
payload. -/
theorem decodeMessage_eq_ok {Payload : Type} {decodePayload : List Byte → Except ProtocolError Payload}
    {encodePayload : Payload → List Byte} {Valid : Payload → Prop}
    (hpayload : ∀ p v, decodePayload p = .ok v ↔ p = encodePayload v ∧ Valid v) {b : List Byte}
    {s : Signed Payload} :
    decodeMessage m decodePayload encodePayload b = .ok s ↔
      b = signed (encodePayload s.payload) s.signature ∧ b.length ≤ maxSignedMessageBytes ∧
        Valid s.payload := by
  simp only [decodeMessage, bind_eq_ok, ensure_eq_ok, exists_const, pure_eq_ok, Except.ok.injEq]
  constructor
  · intro hparts
    obtain ⟨⟨p, signature⟩, hsigned, payload, hdecode, hb, hs⟩ := hparts
    subst hs
    exact ⟨hb, decodeSigned_length hsigned, ((hpayload p payload).mp hdecode).2⟩
  · intro hparts
    obtain ⟨hb, hlen, hvalid⟩ := hparts
    rw [hb] at hlen
    refine ⟨(encodePayload s.payload, s.signature), ?_, s.payload, ?_, hb, rfl⟩
    · rw [hb]
      exact decodeSigned_signed hlen
    · exact (hpayload _ _).mpr ⟨rfl, hvalid⟩

theorem SignedPairingOffer.decode_eq_ok {b : List Byte} {s : SignedPairingOffer} :
    SignedPairingOffer.decode m b = .ok s ↔
      b = SignedPairingOffer.encode s ∧ b.length ≤ maxSignedMessageBytes ∧
        (utf8 s.payload.desktopLabel).length ≤ 64 :=
  decodeMessage_eq_ok fun _ _ => decodeOffer_eq_ok

theorem SignedPairingResponse.decode_eq_ok {b : List Byte} {s : SignedPairingResponse} :
    SignedPairingResponse.decode C m b = .ok s ↔
      b = SignedPairingResponse.encode s ∧ b.length ≤ maxSignedMessageBytes ∧
        validatePairingResponse C s.payload = .ok () :=
  decodeMessage_eq_ok fun _ _ => decodePairingResponse_eq_ok

theorem SignedUnwrapRequest.decode_eq_ok {b : List Byte} {s : SignedUnwrapRequest} :
    SignedUnwrapRequest.decode C m b = .ok s ↔
      b = SignedUnwrapRequest.encode s ∧ b.length ≤ maxSignedMessageBytes ∧
        validateRequest C s.payload = .ok () :=
  decodeMessage_eq_ok fun _ _ => decodeRequest_eq_ok

theorem SignedUnwrapResponse.decode_eq_ok {b : List Byte} {s : SignedUnwrapResponse} :
    SignedUnwrapResponse.decode C m b = .ok s ↔
      b = SignedUnwrapResponse.encode s ∧ b.length ≤ maxSignedMessageBytes ∧
        ∃ key, s.payload.phoneSessionPublicKey = encodePublic C key :=
  decodeMessage_eq_ok fun _ _ => decodeResponse_eq_ok

end Envelopes

section Sizes

variable {C : Crates}

theorem encodeStr_length_le (s : String) : (encodeStr s).length ≤ 9 + (utf8 s).length := by
  have := Cbor.head_length_le 3 (utf8 s).length
  simp only [encodeStr, List.length_append]
  omega

theorem header_length_le (len : ℕ) (kind : U16) : (header len kind).length ≤ 36 := by
  have harray := Cbor.head_length_le 4 len
  have hversion := Cbor.head_length_le 0 protocolVersion.val
  have hkind := Cbor.head_length_le 0 kind.val
  have hsuite := Cbor.head_length_le 0 algorithmSuite.val
  simp only [header, encodeArray, encodeUnsigned, List.length_append]
  omega

private theorem fixed_length_le {n : ℕ} (b : Bytes n) : (encodeBytes b).length ≤ 9 + n := by
  have := encodeBytes_length_le b.1
  rwa [b.2] at this

theorem encodeOffer_length_le {v : PairingOffer} (h : (utf8 v.desktopLabel).length ≤ 64) :
    (encodeOffer v).length ≤ 259 := by
  have hheader := header_length_le 8 offerKind
  have hid := fixed_length_le v.desktopId
  have hlabel := encodeStr_length_le v.desktopLabel
  have hsigning := fixed_length_le v.desktopSigningPublicKey
  have hselection := fixed_length_le v.desktopSelectionPublicKey
  have hnonce := fixed_length_le v.nonce
  simp only [encodeOffer, List.length_append]
  omega

theorem encodePairingResponse_length_le {v : PairingResponse}
    (h : (utf8 v.recipient).length ≤ 160) : (encodePairingResponse v).length ≤ 354 := by
  have hheader := header_length_le 8 pairingResponseKind
  have hid := fixed_length_le v.identityId
  have hrecipient := encodeStr_length_le v.recipient
  have hsigning := fixed_length_le v.phoneSigningPublicKey
  have hdigest := fixed_length_le v.offerDigest
  have hnonce := fixed_length_le v.nonce
  simp only [encodePairingResponse, List.length_append]
  omega

private theorem encodeArgs_length_le {args : List String} {n : ℕ}
    (h : ∀ s ∈ args, (utf8 s).length ≤ n) : (encodeArgs args).length ≤ args.length * (9 + n) := by
  induction args with
  | nil => simp [encodeArgs]
  | cons s args ih =>
      obtain ⟨hhead, htail⟩ := List.forall_mem_cons.mp h
      have hfirst := encodeStr_length_le s
      have hrest := ih htail
      simp only [encodeArgs, List.flatMap_cons, List.length_append, List.length_cons,
        Nat.succ_mul] at hrest ⊢
      omega

theorem encodeStanza_length_le {v : TaggedStanza} (h : StanzaBounds v) :
    (encodeStanza v).length ≤ 406 := by
  have harray := Cbor.head_length_le 4 3
  have htag := encodeStr_length_le v.tag
  have hcount := Cbor.head_length_le 4 v.args.length
  have hargs := encodeArgs_length_le h.args
  have hbody := encodeBytes_length_le v.body
  have htagle := h.tag
  have hbodyeq := h.body
  have htwo : v.args.length ≤ 2 := by
    have := h.count
    omega
  have hmul : v.args.length * (9 + 128) ≤ 2 * (9 + 128) := Nat.mul_le_mul_right _ htwo
  simp only [encodeStanza, encodeArray, List.length_append]
  omega

theorem encodeRequest_length_le {v : UnwrapRequest} (hstanza : StanzaBounds v.recipientStanza)
    (hhint : ∀ s ∈ v.callerHint, (utf8 s).length ≤ 64) : (encodeRequest v).length ≤ 682 := by
  have hheader := header_length_le 11 requestKind
  have hrequest := fixed_length_le v.requestId
  have hidentity := fixed_length_le v.identityId
  have hdesktop := fixed_length_le v.desktopId
  have hsession := fixed_length_le v.sessionPublicKey
  have hbody := encodeStanza_length_le hstanza
  have hnonce := fixed_length_le v.nonce
  have hexpires := Cbor.head_length_le 0 v.expiresAtUnix.val
  have hoptional : (encodeHint v.callerHint).length ≤ 73 := by
    cases hv : v.callerHint with
    | none =>
        have := Cbor.head_length_le 7 22
        simp only [encodeHint, encodeNull]
        omega
    | some s =>
        have hle := encodeStr_length_le s
        have hs := hhint s hv
        simp only [encodeHint]
        omega
  simp only [encodeRequest, encodeUnsigned, List.length_append]
  omega

theorem encodeResponse_length_le (v : UnwrapResponse) : (encodeResponse v).length ≤ 276 := by
  have hheader := header_length_le 10 responseKind
  have hrequest := fixed_length_le v.requestId
  have hdigest := fixed_length_le v.requestDigest
  have hidentity := fixed_length_le v.identityId
  have hdesktop := fixed_length_le v.desktopId
  have hsession := fixed_length_le v.phoneSessionPublicKey
  have hnonce := fixed_length_le v.nonce
  have hkey := fixed_length_le v.encryptedFileKey
  simp only [encodeResponse, encodeResponseFields, List.length_append]
  omega

theorem signed_length_le {payload : List Byte} (h : payload.length ≤ 60000) (signature : Bytes 64) :
    (signed payload signature).length ≤ maxSignedMessageBytes := by
  have harray := Cbor.head_length_le 4 2
  have hpayload := encodeBytes_length_le payload
  have hsignature := fixed_length_le signature
  simp only [signed, encodeArray, List.length_append, maxSignedMessageBytes]
  omega

end Sizes

end AgePluginPhone.Core
