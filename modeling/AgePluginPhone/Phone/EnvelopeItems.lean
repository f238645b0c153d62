import AgePluginPhone.Android.OfflineEnvelope
import AgePluginPhone.Core.MessageKinds
import AgePluginPhone.Ios.StrictCborCodec
import AgePluginPhone.Ios.UnwrapRequest
import AgePluginPhone.Library.CborPlain

/-!
# The messages as trees

The phones read a message as a tree, the desktop as a sequence of fields. The trees of the four
payloads have the desktop's encodings, and each phone reads exactly such trees.
-/

namespace AgePluginPhone.Phone.Envelope

open Library Cbor AgePluginPhone.Core

section Items

def headerItems (kind : U16) : List Item :=
  [.unsigned protocolVersion.val, .unsigned kind.val, .unsigned algorithmSuite.val]

def offerItems (v : PairingOffer) : List Item :=
  headerItems offerKind ++ [.bytes v.desktopId, .text v.desktopLabel,
    .bytes v.desktopSigningPublicKey, .bytes v.desktopSelectionPublicKey, .bytes v.nonce]

def pairingResponseItems (v : PairingResponse) : List Item :=
  headerItems pairingResponseKind ++ [.bytes v.identityId, .text v.recipient,
    .bytes v.phoneSigningPublicKey, .bytes v.offerDigest, .bytes v.nonce]

def stanzaItem (v : TaggedStanza) : Item :=
  .array [.text v.tag, .array (v.args.map .text), .bytes v.body]

def hintItem : Option String → Item
  | some hint => .text hint
  | none => .null

def requestItems (v : UnwrapRequest) : List Item :=
  headerItems requestKind ++ [.bytes v.requestId, .bytes v.identityId, .bytes v.desktopId,
    .bytes v.sessionPublicKey, stanzaItem v.recipientStanza, .bytes v.nonce,
    .unsigned v.expiresAtUnix.val, hintItem v.callerHint]

def responseFieldItems (v : UnwrapResponse) : List Item :=
  headerItems responseKind ++ [.bytes v.requestId, .bytes v.requestDigest, .bytes v.identityId,
    .bytes v.desktopId, .bytes v.phoneSessionPublicKey, .bytes v.nonce]

def responseItems (v : UnwrapResponse) : List Item :=
  responseFieldItems v ++ [.bytes v.encryptedFileKey]

def signedItems (payload : List Byte) (signature : Bytes 64) : List Item :=
  [.bytes payload, .bytes signature]

end Items

section Encodings

private theorem encodeArgs_eq (args : List String) :
    Item.encodeAll (args.map .text) = encodeArgs args := by
  induction args with
  | nil => rfl
  | cons arg args ih =>
      rw [List.map_cons, Item.encodeAll, ih]
      rfl

theorem encode_stanzaItem (v : TaggedStanza) : (stanzaItem v).encode = encodeStanza v := by
  simp [stanzaItem, Item.encode, Item.encodeAll, encodeArgs_eq, encodeStanza, encodeArray, encodeStr,
    encodeBytes]

theorem encode_hintItem (hint : Option String) : (hintItem hint).encode = encodeHint hint := by
  cases hint <;> rfl

theorem encode_offerItems (v : PairingOffer) :
    (Item.array (offerItems v)).encode = encodeOffer v := by
  simp [offerItems, headerItems, Item.encode, Item.encodeAll, encodeOffer, Core.header, encodeArray,
    encodeUnsigned, encodeStr, encodeBytes]

theorem encode_pairingResponseItems (v : PairingResponse) :
    (Item.array (pairingResponseItems v)).encode = encodePairingResponse v := by
  simp [pairingResponseItems, headerItems, Item.encode, Item.encodeAll, encodePairingResponse,
    Core.header, encodeArray, encodeUnsigned, encodeStr, encodeBytes]

theorem encode_requestItems (v : UnwrapRequest) :
    (Item.array (requestItems v)).encode = encodeRequest v := by
  simp [requestItems, headerItems, Item.encode, Item.encodeAll, encode_stanzaItem, encode_hintItem,
    encodeRequest, Core.header, encodeArray, encodeUnsigned, encodeBytes]

theorem encode_responseFieldItems (v : UnwrapResponse) :
    (Item.array (responseFieldItems v)).encode = responseAad v := by
  simp [responseFieldItems, headerItems, Item.encode, Item.encodeAll, responseAad,
    encodeResponseFields, Core.header, encodeArray, encodeUnsigned, encodeBytes]

theorem encode_responseItems (v : UnwrapResponse) :
    (Item.array (responseItems v)).encode = encodeResponse v := by
  simp [responseItems, responseFieldItems, headerItems, Item.encode, Item.encodeAll, encodeResponse,
    encodeResponseFields, Core.header, encodeArray, encodeUnsigned, encodeBytes]

theorem encode_signedItems (payload : List Byte) (signature : Bytes 64) :
    (Item.array (signedItems payload signature)).encode = signed payload signature := by
  simp [signedItems, Item.encode, Item.encodeAll, signed, encodeArray, encodeBytes]

end Encodings

section Limits

/-- The trees both phones read. -/
abbrev Readable (items : List Item) : Prop := Plain (2 ^ 63) 128 4 (.array items)

private theorem header_plain (kind : U16) :
    ∀ item ∈ headerItems kind, Plain (2 ^ 63) 128 3 item := by
  have hsmall (n : U16) : n.val < 2 ^ 63 := n.isLt.trans (by norm_num)
  simp only [headerItems, List.forall_mem_cons, List.not_mem_nil, false_implies, implies_true,
    and_true]
  exact ⟨.unsigned (hsmall _), .unsigned (hsmall _), .unsigned (hsmall _)⟩

private theorem readable_of {kind : U16} {fields : List Item} (hcount : fields.length ≤ 125)
    (h : ∀ item ∈ fields, Plain (2 ^ 63) 128 3 item) : Readable (headerItems kind ++ fields) := by
  refine .array ?_ (List.forall_mem_append.mpr ⟨header_plain kind, h⟩)
  simp [headerItems]
  omega

theorem offer_readable (v : PairingOffer) : Readable (offerItems v) := by
  apply readable_of
  · simp
  · simp only [List.forall_mem_cons, List.not_mem_nil, false_implies, implies_true, and_true]
    exact ⟨.bytes, .text, .bytes, .bytes, .bytes⟩

theorem pairingResponse_readable (v : PairingResponse) : Readable (pairingResponseItems v) := by
  apply readable_of
  · simp
  · simp only [List.forall_mem_cons, List.not_mem_nil, false_implies, implies_true, and_true]
    exact ⟨.bytes, .text, .bytes, .bytes, .bytes⟩

private theorem stanza_plain {v : TaggedStanza} (h : v.args.length ≤ 2) :
    Plain (2 ^ 63) 128 3 (stanzaItem v) := by
  refine .array (by simp) ?_
  simp only [List.forall_mem_cons, List.not_mem_nil, false_implies, implies_true, and_true]
  refine ⟨.text, .array (by simp; omega) ?_, .bytes⟩
  intro item hitem
  obtain ⟨arg, -, rfl⟩ := List.mem_map.mp hitem
  exact .text

theorem request_readable {v : UnwrapRequest} (hargs : v.recipientStanza.args.length ≤ 2)
    (hexpires : v.expiresAtUnix.val < 2 ^ 63) : Readable (requestItems v) := by
  have hhint : Plain (2 ^ 63) 128 3 (hintItem v.callerHint) := by
    cases v.callerHint with
    | none => exact .null
    | some hint => exact .text
  apply readable_of
  · simp
  · simp only [List.forall_mem_cons, List.not_mem_nil, false_implies, implies_true, and_true]
    exact ⟨.bytes, .bytes, .bytes, .bytes, stanza_plain hargs, .bytes, .unsigned hexpires, hhint⟩

theorem signed_readable (payload : List Byte) (signature : Bytes 64) :
    Readable (signedItems payload signature) := by
  refine .array (by simp [signedItems]) ?_
  simp only [signedItems, List.forall_mem_cons, List.not_mem_nil, false_implies, implies_true,
    and_true]
  exact ⟨.bytes, .bytes⟩

end Limits

section Readers

variable {items : List Item} {data : List Byte} {count : ℕ}

theorem ios_exactArray_decode (h : Readable items) (hsize : (Item.array items).encode.length ≤ 65536) :
    (Ios.StrictCbor.decodeDefault (Item.array items).encode >>=
      Ios.StrictCbor.exactArray items.length) = .ok items := by
  have hnested : ∀ {levels item}, Plain (2 ^ 63) 128 levels item →
      Ios.Nested 128 levels item := by
    intro levels item hplain
    induction hplain with
    | unsigned hn => exact .unsigned (hn.trans (by norm_num))
    | bytes => exact .bytes
    | text => exact .text
    | array hlimit _ ih => exact .array hlimit ih
    | null => exact .null
  have hdecode := Ios.decode_encode_nested (show 65536 < 2 ^ 63 by norm_num) (by norm_num)
    (by norm_num) (hnested (h.mono (by decide))) hsize
  rw [Ios.StrictCbor.decodeDefault, hdecode, ok_bind, Ios.StrictCbor.exactArray_eq_ok]
  exact ⟨rfl, rfl⟩

/-- What the strict reader on iOS gives is the tree of its input. -/
theorem ios_encode_of_exactArray
    (h : (Ios.StrictCbor.decodeDefault data >>= Ios.StrictCbor.exactArray count) = .ok items) :
    data = (Item.array items).encode ∧ items.length = count ∧ data.length ≤ 65536 := by
  rw [bind_eq_ok] at h
  obtain ⟨value, hdecode, harray⟩ := h
  obtain ⟨-, hencode, hsize⟩ := Ios.nested_of_decode hdecode
  obtain ⟨rfl, hcount⟩ := Ios.StrictCbor.exactArray_eq_ok.mp harray
  exact ⟨hencode.symm, hcount, hsize⟩

variable {J : Android.OfflineEnvelope.Provider}

theorem android_strictArray_encode (h : Readable items)
    (hsize : (Item.array items).encode.length ≤ 65536) :
    Android.OfflineEnvelope.strictArray J (Item.array items).encode items.length =
      .ok items := by
  have hvalid : Android.ProtocolBounds.validateEncoded (Item.array items).encode = .ok () :=
    Android.ProtocolBounds.validateEncoded_eq_ok.mpr ⟨hsize, (h.mono (by decide)).canonical⟩
  have hread := J.readTree_encode _
    (h.bounded (by norm_num) (by norm_num) (hsize.trans_lt (by norm_num)))
  simp [Android.OfflineEnvelope.strictArray, hvalid, hread, Except.mapError, ensure]

theorem android_encode_of_strictArray
    (h : Android.OfflineEnvelope.strictArray J data count = .ok items) :
    data = (Item.array items).encode ∧ items.length = count ∧ data.length ≤ 65536 := by
  simp only [Android.OfflineEnvelope.strictArray, bind_eq_ok, mapError_ok] at h
  obtain ⟨_, hvalid, h⟩ := h
  obtain ⟨hsize, -⟩ := Android.ProtocolBounds.validateEncoded_eq_ok.mp hvalid
  split at h
  · simp only [bind_eq_ok, ensure_eq_ok, exists_const, pure_eq_ok, Except.ok.injEq] at h
    obtain ⟨⟨hcount, hencode⟩, rfl⟩ := h
    exact ⟨hencode.symm, hcount, hsize⟩
  · cases h
  · cases h

end Readers

section Fields

variable {item : Item} {text : String} {bound : ℕ}

theorem ios_boundedText_eq_ok : Ios.StrictCbor.boundedText bound item = .ok text ↔
    item = .text text ∧ (utf8 text).length ≤ bound := by
  cases item with
  | text content =>
      simp only [Ios.StrictCbor.boundedText, Item.text.injEq]
      by_cases hle : (utf8 content).length ≤ bound
      · rw [if_pos hle, Except.ok.injEq]
        exact ⟨fun h => ⟨h, h ▸ hle⟩, And.left⟩
      · rw [if_neg hle]
        simp only [reduceCtorEq, false_iff, not_and]
        exact fun h => h ▸ hle
  | _ => simp [Ios.StrictCbor.boundedText]

theorem android_text_eq_ok : Android.OfflineEnvelope.text bound item = .ok text ↔
    item = .text text ∧ (utf8 text).length ≤ bound := by
  cases item with
  | text content =>
      simp only [Android.OfflineEnvelope.text, Item.text.injEq]
      by_cases hle : (utf8 content).length ≤ bound
      · rw [if_pos hle, Except.ok.injEq]
        exact ⟨fun h => ⟨h, h ▸ hle⟩, And.left⟩
      · rw [if_neg hle]
        simp only [reduceCtorEq, false_iff, not_and]
        exact fun h => h ▸ hle
  | _ => simp [Android.OfflineEnvelope.text]

theorem android_anyBytes_eq_ok {content : List Byte} :
    Android.OfflineEnvelope.anyBytes item = .ok content ↔ item = .bytes content := by
  cases item <;> simp [Android.OfflineEnvelope.anyBytes]

theorem android_bytes_eq_ok {content : Bytes bound} :
    Android.OfflineEnvelope.bytes bound item = .ok content ↔ item = .bytes content.1 := by
  simp only [Android.OfflineEnvelope.bytes, bind_eq_ok, android_anyBytes_eq_ok, okOr_eq_ok]
  constructor
  · rintro ⟨value, rfl, hvalue⟩
    split_ifs at hvalue
    obtain rfl := Option.some.inj hvalue
    rfl
  · rintro rfl
    exact ⟨content.1, rfl, dif_pos content.2⟩

theorem android_unsignedLong_eq_ok {n : Android.Long} :
    Android.OfflineEnvelope.unsignedLong item = .ok n ↔
      ∃ k : ℕ, item = .unsigned k ∧ k < 2 ^ 63 ∧ n.1 = k := by
  cases item with
  | unsigned k =>
      simp only [Android.OfflineEnvelope.unsignedLong, Item.unsigned.injEq,
        exists_eq_left']
      by_cases hk : k < 9223372036854775808
      · rw [dif_pos hk, Except.ok.injEq, Subtype.ext_iff]
        exact ⟨fun h => ⟨hk, h.symm⟩, fun h => h.2.symm⟩
      · rw [dif_neg hk]
        simp only [reduceCtorEq, false_iff, not_and]
        exact fun h => absurd h hk
  | _ => simp [Android.OfflineEnvelope.unsignedLong]

/-- Texts read one by one are the texts of the items. -/
theorem mapM_text {ε : Type} {read : Item → Except ε String} {valid : String → Prop}
    (hread : ∀ item text, read item = .ok text ↔ item = .text text ∧ valid text)
    {items : List Item} {texts : List String} :
    items.mapM read = .ok texts ↔ items = texts.map .text ∧ ∀ s ∈ texts, valid s := by
  induction items generalizing texts with
  | nil => cases texts <;> simp
  | cons item items ih =>
      simp only [List.mapM_cons, bind_eq_ok, pure_eq_ok, Except.ok.injEq, hread, ih]
      constructor
      · rintro ⟨text, ⟨rfl, hvalid⟩, rest, ⟨rfl, hrest⟩, rfl⟩
        exact ⟨rfl, List.forall_mem_cons.mpr ⟨hvalid, hrest⟩⟩
      · rintro ⟨hitems, hvalid⟩
        cases texts with
        | nil => simp at hitems
        | cons text texts =>
            obtain ⟨rfl, rfl⟩ := List.cons.inj hitems
            obtain ⟨hhead, htail⟩ := List.forall_mem_cons.mp hvalid
            exact ⟨text, ⟨rfl, hhead⟩, texts, ⟨rfl, htail⟩, rfl⟩

variable {kind : U16} {a b c : Item} {rest : List Item}

theorem ios_header_eq_ok {u : Unit} : Ios.header (a :: b :: c :: rest) kind.val = .ok u ↔
    a :: b :: c :: rest = headerItems kind ++ rest := by
  have hsmall (n : U16) : n.val < 18446744073709551616 := n.isLt.trans (by norm_num)
  simp only [Ios.header, bind_eq_ok, ensure_eq_ok, Ios.cbor_eq_ok, Ios.StrictCbor.exactUnsigned_eq_ok,
    headerItems, List.cons_append, List.nil_append, List.cons.injEq, and_true]
  constructor
  · rintro ⟨version, rfl, type, rfl, suite, rfl, hversion, htype, hsuite⟩
    exact ⟨by rw [hversion]; rfl, by rw [htype], by rw [hsuite]; rfl⟩
  · rintro ⟨rfl, rfl, rfl⟩
    exact ⟨⟨_, hsmall protocolVersion⟩, rfl, ⟨_, hsmall kind⟩, rfl, ⟨_, hsmall algorithmSuite⟩, rfl,
      rfl, rfl, rfl⟩

theorem android_isExactInteger_iff {expected : ℕ} :
    Android.OfflineEnvelope.isExactInteger item expected = true ↔ item = .unsigned expected := by
  cases item <;> simp [Android.OfflineEnvelope.isExactInteger]

theorem android_header_eq_ok {u : Unit} :
    Android.OfflineEnvelope.header (a :: b :: c :: rest) kind.val = .ok u ↔
      a :: b :: c :: rest = headerItems kind ++ rest := by
  simp only [Android.OfflineEnvelope.header, ensure_eq_ok, List.getD_cons_zero,
    List.getD_cons_succ, android_isExactInteger_iff, headerItems, List.cons_append, List.nil_append,
    List.cons.injEq, and_true]
  exact Iff.rfl

end Fields

section Envelopes

variable {data payload : List Byte} {signature : Bytes 64}

theorem ios_decodeSigned_eq_ok : Ios.decodeSigned data = .ok (payload, signature) ↔
    data = signed payload signature ∧ data.length ≤ 65536 := by
  constructor
  · intro h
    simp only [Ios.decodeSigned, bind_eq_ok, Ios.cbor_eq_ok] at h
    obtain ⟨items, ⟨value, hdecode, harray⟩, h⟩ := h
    obtain ⟨hencode, -, hsize⟩ := ios_encode_of_exactArray
      (show (Ios.StrictCbor.decodeDefault data >>= Ios.StrictCbor.exactArray 2) = .ok items from
        bind_eq_ok.mpr ⟨value, hdecode, harray⟩)
    split at h
    · simp only [bind_eq_ok, Ios.cbor_eq_ok, Ios.StrictCbor.anyBytes_eq_ok,
        Ios.StrictCbor.exactBytes_eq_ok, pure_eq_ok, Except.ok.injEq, Prod.mk.injEq] at h
      obtain ⟨_, rfl, _, rfl, rfl, rfl⟩ := h
      exact ⟨hencode.trans (encode_signedItems _ _), hsize⟩
    · cases h
  · rintro ⟨rfl, hsize⟩
    rw [← encode_signedItems] at hsize
    have hread := ios_exactArray_decode (signed_readable payload signature) hsize
    simp only [Ios.decodeSigned, bind_eq_ok, Ios.cbor_eq_ok]
    refine ⟨signedItems payload signature, ?_, ?_⟩
    · rw [encode_signedItems] at hread
      exact bind_eq_ok.mp hread
    · simp [signedItems, bind_eq_ok, Ios.StrictCbor.anyBytes_eq_ok,
        Ios.StrictCbor.exactBytes_eq_ok, pure_eq_ok]

variable {J : Android.OfflineEnvelope.Provider}

theorem android_decodeSigned_eq_ok :
    Android.OfflineEnvelope.decodeSigned J data = .ok (payload, signature) ↔
      data = signed payload signature ∧ data.length ≤ 65536 := by
  constructor
  · intro h
    simp only [Android.OfflineEnvelope.decodeSigned, bind_eq_ok] at h
    obtain ⟨items, harray, h⟩ := h
    obtain ⟨hencode, -, hsize⟩ := android_encode_of_strictArray harray
    split at h
    · simp only [bind_eq_ok, android_anyBytes_eq_ok, android_bytes_eq_ok, pure_eq_ok,
        Except.ok.injEq, Prod.mk.injEq] at h
      obtain ⟨_, rfl, _, rfl, rfl, rfl⟩ := h
      exact ⟨hencode.trans (encode_signedItems _ _), hsize⟩
    · cases h
  · rintro ⟨rfl, hsize⟩
    rw [← encode_signedItems] at hsize
    have hread := android_strictArray_encode (J := J) (signed_readable payload signature) hsize
    simp only [Android.OfflineEnvelope.decodeSigned, bind_eq_ok]
    refine ⟨signedItems payload signature, ?_, ?_⟩
    · rw [encode_signedItems] at hread
      exact hread
    · simp [signedItems, bind_eq_ok, android_anyBytes_eq_ok, android_bytes_eq_ok, pure_eq_ok]

end Envelopes

end AgePluginPhone.Phone.Envelope
