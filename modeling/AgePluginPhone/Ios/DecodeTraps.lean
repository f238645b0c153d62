import AgePluginPhone.Ios.QrFraming
import AgePluginPhone.Ios.PairingStateStore
import AgePluginPhone.Ios.StrictCborCodec
import AgePluginPhone.Phone.QrAgreement

/-!
# Traps of the decoders on iOS

`Int` of an integer from 2^63 on ends the process. The strict reader admits such integers; here are
the inputs on which the decoders of frames and of pairing states convert one.
-/

namespace AgePluginPhone.Ios

open Library Cbor StrictCbor

/-- The first value that is not an integer below 2^63 is an integer. -/
def Overflows : List Item → Prop
  | .unsigned n :: values => 9223372036854775808 ≤ n ∨ Overflows values
  | _ => False

namespace Qr

open AgePluginPhone.Phone.Qr
open AgePluginPhone.Core.Qr hiding Frame

variable {p : Platform} {value : String}

def frameValues (transferId digest index count total chunk : Item) : List Item :=
  [.unsigned 1, .unsigned 1, transferId, digest, index, count, total, chunk]

/-- The text of an array with the version and type of a frame and an integer that `Int` does not
hold where its index, count and total length are converted. -/
def OverflowingFrame (value : String) : Prop :=
  ∃ transferId digest index count total chunk,
    Nested 128 (maximumDepth + 1) (.array (frameValues transferId digest index count total chunk)) ∧
      value = textPrefix ++
        Base64.encodeUrl (Item.array (frameValues transferId digest index count total chunk)).encode ∧
      value.length ≤ maxEncodedFrameChars ∧ Overflows [index, count, total]

private theorem convert_trap {item : Item} {levels : ℕ} (hitem : Nested 128 levels item) :
    (cbor (exactUnsigned item) >>= toInt) = .error .trap ↔
      ∃ n, item = .unsigned n ∧ 9223372036854775808 ≤ n := by
  cases item with
  | unsigned n =>
      have hn : n < 18446744073709551616 := by
        cases hitem
        assumption
      have hexact : exactUnsigned (.unsigned n) = .ok ⟨n, hn⟩ := dif_pos hn
      by_cases hlarge : n < 9223372036854775808
      · simp [hexact, cbor, Except.mapError, toInt, hlarge]
      · simp [hexact, cbor, Except.mapError, toInt, hlarge, not_lt.mp hlarge]
  | _ => simp [exactUnsigned, cbor, Except.mapError]

private theorem convert_ok {item : Item} {k : ℕ} :
    (cbor (exactUnsigned item) >>= toInt) = .ok k ↔
      item = .unsigned k ∧ k < 9223372036854775808 := by
  simp only [bind_eq_ok, cbor_eq_ok, exactUnsigned_eq_ok, toInt_eq_ok]
  constructor
  · rintro ⟨n, rfl, hn, rfl⟩
    exact ⟨rfl, hn⟩
  · rintro ⟨rfl, hk⟩
    exact ⟨⟨k, hk.trans (by decide)⟩, rfl, hk, rfl⟩

private theorem reader_ne_trap {α : Type} (x : Except StrictCborError α) : cbor x ≠ .error .trap := by
  cases x <;> simp [cbor, Except.mapError]

private theorem ensure_ne_trap {condition : Prop} [Decidable condition] (error : QRFramingError) :
    ensure condition (Failure.framing error) ≠ .error .trap := by
  by_cases h : condition <;> simp [ensure, h]

private theorem trap_bind_iff {α β : Type} {x : Except Failure α} {f : α → Except Failure β}
    (hx : x ≠ .error .trap) :
    (x >>= f) = .error .trap ↔ ∃ a, x = .ok a ∧ f a = .error .trap := by
  simp only [bind_eq_error, hx, false_or]

private theorem version_iff {item : Item} {β : Type} {f : U64 → Except Failure β}
    {error : QRFramingError} : (cbor (exactUnsigned item) >>= fun version =>
      ensure (version = 1) (.framing error) >>= fun _ => f version) = .error .trap ↔
        item = .unsigned 1 ∧ f 1 = .error .trap := by
  simp only [trap_bind_iff (reader_ne_trap _), trap_bind_iff (ensure_ne_trap _), ensure_eq_ok,
    exists_const, cbor_eq_ok, exactUnsigned_eq_ok]
  constructor
  · rintro ⟨version, rfl, rfl, h⟩
    exact ⟨rfl, h⟩
  · rintro ⟨rfl, h⟩
    exact ⟨1, rfl, rfl, h⟩

private theorem convert_bind_iff {item : Item} {levels : ℕ} (hitem : Nested 128 levels item)
    {β : Type} {f : ℕ → Except Failure β} {others : List Item}
    (hf : ∀ k, f k = .error .trap ↔ Overflows others) :
    (cbor (exactUnsigned item) >>= toInt >>= f) = .error .trap ↔ Overflows (item :: others) := by
  rw [bind_eq_error, convert_trap hitem]
  simp only [convert_ok, hf]
  cases item with
  | unsigned n =>
      simp only [Item.unsigned.injEq, exists_eq_left', Overflows]
      constructor
      · rintro (hlarge | ⟨k, ⟨rfl, -⟩, hothers⟩)
        · exact .inl hlarge
        · exact .inr hothers
      · rintro (hlarge | hothers)
        · exact .inl hlarge
        · by_cases hlarge : 9223372036854775808 ≤ n
          · exact .inl hlarge
          · exact .inr ⟨n, ⟨rfl, not_le.mp hlarge⟩, hothers⟩
  | _ => simp [Overflows]

/-- The values on which the reader of frames traps. -/
theorem decodeValues_trap_iff {values : List Item} {levels : ℕ}
    (hvalues : ∀ item ∈ values, Nested 128 levels item) :
    decodeValues values = .error .trap ↔ ∃ transferId digest index count total chunk,
      values = frameValues transferId digest index count total chunk ∧
        Overflows [index, count, total] := by
  unfold decodeValues
  split
  · rename_i version type transferId digest index count total chunk
    simp only [List.forall_mem_cons] at hvalues
    obtain ⟨-, -, -, -, hindex, hcount, htotal, -⟩ := hvalues
    have hchecks : ∀ index count total : ℕ, (do
        let chunk ← cbor (anyBytes chunk)
        ensure ((1 ≤ count ∧ count ≤ maxQrFragments) ∧ index < count ∧
          (1 ≤ total ∧ total ≤ maxQrMessageBytes) ∧ chunk ≠ [] ∧ chunk.length ≤ defaultQrChunkBytes ∧
          chunk.length ≤ total) (Failure.framing .malformedFrame)
        let transferId ← cbor (exactBytes 16 transferId)
        let digest ← cbor (exactBytes 32 digest)
        return (⟨transferId, digest, index, count, total, chunk⟩ : Frame)) = .error .trap ↔
          Overflows [] := by
      intro index count total
      simp only [trap_bind_iff (reader_ne_trap _), trap_bind_iff (ensure_ne_trap _), pure_eq_ok,
        reduceCtorEq, and_false, exists_false, Overflows]
    rw [version_iff, version_iff, convert_bind_iff hindex fun index =>
      convert_bind_iff hcount fun count => convert_bind_iff htotal fun total =>
        hchecks index count total]
    constructor
    · rintro ⟨rfl, rfl, hoverflow⟩
      exact ⟨_, _, _, _, _, _, rfl, hoverflow⟩
    · rintro ⟨_, _, _, _, _, _, heq, hoverflow⟩
      simp only [frameValues, List.cons.injEq, and_true] at heq
      obtain ⟨rfl, rfl, rfl, rfl, rfl, rfl, rfl, rfl⟩ := heq
      exact ⟨rfl, rfl, hoverflow⟩
  · rename_i hshape
    simp only [reduceCtorEq, Except.error.injEq, false_iff]
    rintro ⟨transferId, digest, index, count, total, chunk, rfl, -⟩
    exact hshape _ _ _ _ _ _ _ _ rfl

private theorem characters_text_of (data : List Byte) :
    p.characters (textPrefix ++ Base64.encodeUrl data) =
      (textPrefix ++ Base64.encodeUrl data).toList.map fun c => [c] := by
  have hall : AgePluginPhone.Core.Qr.Frame.textAlphabet.all (fun c => decide (c.toNat < 128 ∧ c ≠ '\r')) = true := by
    decide +kernel
  refine p.characters_ascii _ fun c hc => of_decide_eq_true (List.all_eq_true.mp hall c ?_)
  rw [String.toList_append, List.mem_append] at hc
  exact List.mem_append.mpr (hc.imp_right Base64.mem_encodeUrl)

private theorem characters_encodeUrl_of (data : List Byte) :
    p.characters (Base64.encodeUrl data) = (Base64.encodeUrl data).toList.map fun c => [c] := by
  have hall : Base64.urlAlphabet.all (fun c => decide (c.toNat < 128 ∧ c ≠ '\r')) = true := by
    decide +kernel
  exact p.characters_ascii _ fun c hc =>
    of_decide_eq_true (List.all_eq_true.mp hall c (Base64.mem_encodeUrl hc))

private theorem length_le_of_text {data : List Byte} {limit : ℕ}
    (h : (textPrefix ++ Base64.encodeUrl data).length ≤ limit) : data.length ≤ limit := by
  have hascii : ∀ c ∈ (Base64.encodeUrl data).toList, c.utf8Size = 1 := by
    have hall : Base64.urlAlphabet.all (fun c => c.utf8Size == 1) = true := by decide +kernel
    intro c hc
    exact beq_iff_eq.mp (List.all_eq_true.mp hall c (Base64.mem_encodeUrl hc))
  have hlength := DigitText.utf8_ofList_length hascii
  rw [String.ofList_toList, Base64.encodeUrl_length, String.length_toList] at hlength
  rw [String.length_append] at h
  omega

/-- The text of any data is read back before its values are looked at. -/
theorem decode_of_text {data : List Byte} (hdata : data ≠ [])
    (hlength : (textPrefix ++ Base64.encodeUrl data).length ≤ maxEncodedFrameChars) :
    decode p (textPrefix ++ Base64.encodeUrl data) =
      cbor (decodeDefault data >>= exactArray 8) >>= decodeValues := by
  have hcharacters := characters_text_of (p := p) data
  have hsize : (p.characters (textPrefix ++ Base64.encodeUrl data)).length ≤ maxEncodedFrameChars := by
    rwa [hcharacters, List.length_map, String.length_toList]
  have hstarts : textPrefix.toList.map (fun c => [c]) <+:
      p.characters (textPrefix ++ Base64.encodeUrl data) := by
    rw [hcharacters, String.toList_append, List.map_append]
    exact List.prefix_append _ _
  have hpayload : String.ofList ((p.characters (textPrefix ++ Base64.encodeUrl data)).drop
      (textPrefix.toList.map fun c => [c]).length).flatten = Base64.encodeUrl data := by
    rw [hcharacters, String.toList_append, List.map_append, List.drop_left, ← List.flatMap_def,
      List.flatMap_singleton', String.ofList_toList]
  have hequals : ['='] ∉ p.characters (Base64.encodeUrl data) := by
    rw [characters_encodeUrl_of]
    intro hmem
    obtain ⟨c, hc, heq⟩ := List.mem_map.mp hmem
    obtain rfl : c = '=' := by simpa using heq
    exact Base64.equals_not_mem_encodeUrl data hc
  have hnonempty := Base64.encodeUrl_ne_empty hdata
  have hread := decodeBase64Url_encodeUrl (characters_encodeUrl_of (p := p) data)
  have hurl := base64Url_eq data
  rw [decode]
  simp only [ensure_true _ (And.intro hsize hstarts), ok_bind, hpayload,
    ensure_true _ (And.intro hnonempty hequals), hread, okOr_some, ensure_true _ hurl]

theorem decode_trap_iff : decode p value = .error .trap ↔ OverflowingFrame value := by
  constructor
  · intro h
    simp only [decode, bind_eq_error, ensure_eq_error, okOr_eq_error, reader_ne_trap, false_or,
      and_false, reduceCtorEq, ensure_eq_ok, okOr_eq_ok, exists_const, cbor_eq_ok] at h
    obtain ⟨⟨hlength, hstarts⟩, -, data, -, hpayload, values, hvalues, hframe⟩ := h
    obtain ⟨htext, hdata⟩ := decode_values hstarts hpayload hvalues
    obtain ⟨hnested, hencode, -⟩ := nested_of_decode hdata
    have hitems : ∀ item ∈ values, Nested 128 maximumDepth item := by
      cases hnested
      assumption
    obtain ⟨transferId, digest, index, count, total, chunk, rfl, hoverflow⟩ :=
      (decodeValues_trap_iff hitems).mp hframe
    refine ⟨transferId, digest, index, count, total, chunk, hnested, ?_, ?_, hoverflow⟩
    · rw [htext, hencode]
    · rwa [htext, characters_text_of, List.length_map, String.length_toList, ← htext] at hlength
  · rintro ⟨transferId, digest, index, count, total, chunk, hnested, rfl, hlength, hoverflow⟩
    have hitems : ∀ item ∈ frameValues transferId digest index count total chunk,
        Nested 128 maximumDepth item := by
      cases hnested
      assumption
    have hframe := (decodeValues_trap_iff hitems).mpr
      ⟨transferId, digest, index, count, total, chunk, rfl, hoverflow⟩
    have hdecoded : decodeDefault
        (Item.array (frameValues transferId digest index count total chunk)).encode =
          .ok (.array (frameValues transferId digest index count total chunk)) := by
      have hsize := (length_le_of_text hlength).trans (show maxEncodedFrameChars ≤ 65536 by decide)
      exact decode_encode_nested (by norm_num) (by norm_num) (by norm_num) hnested hsize
    rw [decode_of_text (Item.encode_ne_nil _) hlength, hdecoded]
    exact hframe

end Qr

section States

variable {K : CryptoKit}

def stateValues (record : PairingRecord) (created lastSeen : U64) (capacity : ℕ) (entries : Item) :
    List Item :=
  [.unsigned 2, .bytes record.desktopId, .bytes record.identityId, .text record.desktopLabel,
    .text record.recipient, .bytes record.desktopSigningPublicKey,
    .bytes record.desktopSelectionPublicKey, .bytes record.phoneSigningPublicKey,
    .bytes record.offerDigest, .bytes record.transcriptFingerprint, .unsigned created,
    .unsigned lastSeen, .unsigned capacity, entries]

/-- The encoding of a state with a proper record and a capacity that `Int` does not hold. -/
def OverflowingCapacity (K : CryptoKit) (data : List Byte) : Prop :=
  ∃ record created lastSeen capacity entries,
    Nested maximumCapacity (maximumDepth + 1)
        (.array (stateValues record created lastSeen capacity entries)) ∧
      data = (Item.array (stateValues record created lastSeen capacity entries)).encode ∧
      data.length ≤ maximumStateBytes ∧ (utf8 record.desktopLabel).length ≤ 64 ∧
      (utf8 record.recipient).length ≤ 160 ∧ requireRoles K record = .ok () ∧
      9223372036854775808 ≤ capacity

private theorem cbor_ne_trap {α : Type} (x : Except StrictCborError α) : cbor x ≠ .error .trap := by
  cases x <;> simp [cbor, Except.mapError]

private theorem check_ne_trap {condition : Prop} [Decidable condition] (error : PairingStoreError) :
    ensure condition (Failure.store error) ≠ .error .trap := by
  by_cases h : condition <;> simp [ensure, h]

private theorem bind_trap_iff {α β : Type} {x : Except Failure α} {f : α → Except Failure β}
    (hx : x ≠ .error .trap) :
    (x >>= f) = .error .trap ↔ ∃ a, x = .ok a ∧ f a = .error .trap := by
  simp only [bind_eq_error, hx, false_or]

private theorem publicKey_ne_trap (compact : Bytes 33) : publicKey K compact ≠ .error .trap := by
  simp [publicKey, okOr_eq_error]

private theorem requireRoles_ne_trap (record : PairingRecord) :
    requireRoles K record ≠ .error .trap := by
  simp only [requireRoles, ne_eq, bind_trap_iff (check_ne_trap _),
    bind_trap_iff (publicKey_ne_trap _), pure_eq_ok, reduceCtorEq, and_false, exists_false,
    not_false_eq_true]

private theorem mapM_ne_trap {α β : Type} {f : α → Except Failure β} (hf : ∀ a, f a ≠ .error .trap)
    (items : List α) : items.mapM f ≠ .error .trap := by
  induction items with
  | nil => simp
  | cons item items ih =>
      simp only [List.mapM_cons, ne_eq, bind_trap_iff (hf _), bind_trap_iff ih, pure_eq_ok,
        reduceCtorEq, and_false, exists_false, not_false_eq_true]

private theorem decodeEntry_ne_trap (value : Item) : decodeEntry value ≠ .error .trap := by
  simp only [decodeEntry, ne_eq, bind_trap_iff (cbor_ne_trap _), not_exists, not_and]
  intro values _
  split
  · simp only [bind_trap_iff (cbor_ne_trap _), pure_eq_ok, reduceCtorEq, and_false, exists_false,
      not_false_eq_true]
  · simp

private theorem intOfUnsigned_trap {n : U64} {β : Type} {f : ℕ → Except Failure β}
    (hf : ∀ k, f k ≠ .error .trap) :
    (intOfUnsigned n >>= f) = .error .trap ↔ 9223372036854775808 ≤ n.val := by
  rw [bind_eq_error]
  simp only [hf, and_false, exists_false, or_false, intOfUnsigned]
  split_ifs with h
  · simp [h]
  · simp [not_lt.mp h]

private theorem boundedText_iff {item : Item} {bound : ℕ} {s : String} :
    boundedText bound item = .ok s ↔ item = .text s ∧ (utf8 s).length ≤ bound := by
  cases item with
  | text content =>
      simp only [boundedText, Item.text.injEq]
      by_cases h : (utf8 content).length ≤ bound
      · rw [if_pos h, Except.ok.injEq]
        exact ⟨fun heq => ⟨heq, heq ▸ h⟩, And.left⟩
      · rw [if_neg h]
        simp only [reduceCtorEq, false_iff, not_and]
        exact fun heq => heq ▸ h
  | _ => simp [boundedText]

/-- After the capacity has been converted. -/
private theorem entries_ne_trap (record : PairingRecord) (created lastSeen : U64) (capacity : ℕ)
    (entries : Item) : (do
      ensure (created ≤ lastSeen ∧ 1 ≤ capacity ∧ capacity ≤ maximumCapacity) (Failure.store .malformed)
      let values ← okOr (entryValues entries) (Failure.store .malformed)
      ensure (values.length ≤ capacity) (Failure.store .malformed)
      let entries ← values.mapM decodeEntry
      requireEntries lastSeen entries
      return (⟨record, created, lastSeen, capacity, entries⟩ : PairingState)) ≠ .error .trap := by
  have hvalues : okOr (entryValues entries) (Failure.store .malformed) ≠ .error .trap := by
    simp [okOr_eq_error]
  simp only [ne_eq, bind_trap_iff (check_ne_trap _), bind_trap_iff hvalues,
    bind_trap_iff (mapM_ne_trap decodeEntry_ne_trap _), requireEntries, pure_eq_ok, reduceCtorEq,
    and_false, exists_false, not_false_eq_true]

/-- A reader of states traps at its capacity only. -/
theorem state_decode_trap_iff {data : List Byte} :
    decode K data = .error .trap ↔ OverflowingCapacity K data := by
  constructor
  · intro h
    simp only [decode, bind_trap_iff (check_ne_trap _), bind_trap_iff (cbor_ne_trap _), ensure_eq_ok,
      exists_const, cbor_eq_ok] at h
    obtain ⟨hsize, values, hvalues, h⟩ := h
    split at h
    · simp only [bind_trap_iff (cbor_ne_trap _), bind_trap_iff (check_ne_trap _),
        bind_trap_iff (requireRoles_ne_trap _), ensure_eq_ok, exists_const, cbor_eq_ok,
        exactUnsigned_eq_ok, exactBytes_eq_ok, boundedText_iff] at h
      obtain ⟨version, rfl, hversion, desktopId, rfl, identityId, rfl, label, hlabel, recipient,
        hrecipient, signing, rfl, selection, rfl, phoneSigning, rfl, offerDigest, rfl, fingerprint, rfl,
        roles, hroles, created, rfl, lastSeen, rfl, capacity, rfl, hcapacity⟩ := h
      obtain ⟨rfl, hlabel⟩ := hlabel
      obtain ⟨rfl, hrecipient⟩ := hrecipient
      rw [intOfUnsigned_trap fun capacity => entries_ne_trap _ _ _ _ _] at hcapacity
      obtain ⟨item, hitem, harray⟩ := bind_eq_ok.mp hvalues
      obtain ⟨rfl, -⟩ := exactArray_eq_ok.mp harray
      obtain ⟨hnested, hencode, -⟩ := nested_of_decode hitem
      have htwo : version = 2 := Fin.ext hversion
      subst htwo
      exact ⟨⟨desktopId, identityId, label, recipient, signing, selection, phoneSigning, offerDigest,
        fingerprint⟩, created, lastSeen, capacity, _, hnested, hencode.symm, hsize, hlabel, hrecipient,
        hroles, hcapacity⟩
    · cases h
  · rintro ⟨record, created, lastSeen, capacity, entries, hnested, rfl, hsize, hlabel, hrecipient, hroles,
      hlarge⟩
    have hdecoded := decode_encode_nested (by decide) (by decide) (by decide) hnested hsize
    have hcapacity : capacity < 18446744073709551616 := by
      cases hnested with
      | array _ hitems =>
          have hcapacity := hitems (.unsigned capacity) (by simp [stateValues])
          cases hcapacity
          assumption
    have harray : exactArray 14 (.array (stateValues record created lastSeen capacity entries)) =
        .ok (stateValues record created lastSeen capacity entries) := rfl
    simp only [decode, bind_trap_iff (check_ne_trap _), bind_trap_iff (cbor_ne_trap _), ensure_eq_ok,
      exists_const, cbor_eq_ok, hdecoded, ok_bind, harray]
    refine ⟨hsize, _, rfl, ?_⟩
    have hbytes : ∀ n (content : Bytes n), cbor (exactBytes n (.bytes content.1)) = .ok content :=
      fun n content => cbor_eq_ok.mpr (exactBytes_eq_ok.mpr rfl)
    have hunsigned : ∀ n : U64, cbor (exactUnsigned (.unsigned n.val)) = .ok n :=
      fun n => cbor_eq_ok.mpr (exactUnsigned_eq_ok.mpr rfl)
    have hversion : cbor (exactUnsigned (.unsigned 2)) = .ok 2 := rfl
    have hconverted : cbor (exactUnsigned (.unsigned capacity)) = .ok ⟨capacity, hcapacity⟩ :=
      cbor_eq_ok.mpr (exactUnsigned_eq_ok.mpr rfl)
    have hlabel' : cbor (boundedText 64 (.text record.desktopLabel)) = .ok record.desktopLabel :=
      cbor_eq_ok.mpr (boundedText_iff.mpr ⟨rfl, hlabel⟩)
    have hrecipient' : cbor (boundedText 160 (.text record.recipient)) = .ok record.recipient :=
      cbor_eq_ok.mpr (boundedText_iff.mpr ⟨rfl, hrecipient⟩)
    have htrap : intOfUnsigned ⟨capacity, hcapacity⟩ = .error .trap := if_neg (not_lt.mpr hlarge)
    have htwo : (2 : U64).val = 2 := rfl
    simp only [stateValues, hversion, hbytes, hunsigned, hconverted, hlabel', hrecipient', ok_bind,
      ensure_true _ htwo, hroles, htrap, error_bind]

end States

section Decoders

variable (p : Qr.Platform) (K : CryptoKit)

/-- The bounds of a decoded frame. -/
def FrameInBounds (frame : Phone.Qr.Frame) : Prop :=
  (1 ≤ frame.count ∧ frame.count ≤ 128) ∧ frame.index < frame.count ∧
    (1 ≤ frame.totalLength ∧ frame.totalLength ≤ 65536) ∧
    (1 ≤ frame.chunk.length ∧ frame.chunk.length ≤ 600 ∧ frame.chunk.length ≤ frame.totalLength)

private theorem inBounds {frame : Phone.Qr.Frame} (h : frame.Bounded) : FrameInBounds frame :=
  ⟨h.count, h.index, h.total, List.length_pos_iff.mpr h.chunk.1, h.chunk.2⟩

/-- The decoders return or throw exactly on the inputs that convert no integer from 2^63 on; what
they read a value with never traps, and a decoded frame is within its bounds. -/
theorem decoders_trap (value : String) (data : List Byte) :
    ((Qr.decode p value ≠ .error .trap ∧ ∀ frame, Qr.decode p value = .ok frame → FrameInBounds frame) ↔
      ¬ Qr.OverflowingFrame value) ∧
    (decode K data ≠ .error .trap ↔ ¬ OverflowingCapacity K data) ∧
    StrictCborCursor.decode data 65536 128 = (StrictCbor.decode data 65536 128).mapError .thrown ∧
    StrictCborCursor.decode data 1048576 16384 =
      (StrictCbor.decode data 1048576 16384).mapError .thrown := by
  refine ⟨?_, not_congr state_decode_trap_iff,
    StrictCborCursor.decode_eq_of_limit (by norm_num) (by norm_num),
    StrictCborCursor.decode_eq_of_limit (by norm_num) (by norm_num)⟩
  rw [← not_congr (Qr.decode_trap_iff (p := p))]
  refine and_iff_left fun frame hframe => inBounds ?_
  simp only [Qr.decode, bind_eq_ok, ensure_eq_ok, exists_const] at hframe
  obtain ⟨-, -, data, -, -, values, -, hvalues⟩ := hframe
  exact (Qr.decodeValues_eq_ok hvalues).1

/-- A frame whose index is 2^63. -/
def overflowingText : String :=
  "age-phone:qr1:iAEBUAAAAAAAAAAAAAAAAAAAAABYIAAAAAAAAAAAAAAAAAAAAAAAAAAAAAAAAAAAAAAAAAAAG4AAAAAAAAAAAQFBAA"

theorem decoders_trap_sample : Qr.decode Phone.Qr.sampleIos overflowingText = .error .trap := by
  refine Qr.decode_trap_iff.mpr ⟨.bytes (List.replicate 16 0), .bytes (List.replicate 32 0),
    .unsigned 9223372036854775808, .unsigned 1, .unsigned 1, .bytes [0], ?_, by decide +kernel,
    by decide +kernel, .inl (le_refl _)⟩
  refine .array (by decide) ?_
  simp only [Qr.frameValues, List.forall_mem_cons, List.not_mem_nil, false_imp_iff, implies_true,
    and_true]
  exact ⟨.unsigned (by decide), .unsigned (by decide), .bytes, .bytes, .unsigned (by decide),
    .unsigned (by decide), .unsigned (by decide), .bytes⟩

end Decoders

end AgePluginPhone.Ios
