import AgePluginPhone.Ios.StrictCbor
import AgePluginPhone.Phone.QrReassembly

/-!
# QR framing on iOS

The Swift decoder of a frame, and the reassembler of the phones with its errors. A conversion
that traps ends the process.
-/

namespace AgePluginPhone.Ios.Qr

open Library Cbor AgePluginPhone.Core AgePluginPhone.Phone.Qr
open AgePluginPhone.Core.Qr hiding Frame

inductive QRFramingError
  | chunkSize
  | clockRollback
  | conflictingFragment
  | differentTransfer
  | digestMismatch
  | malformedFrame
  | messageSize
  | poisoned
  | timeout
  | tooManyFragments
  | unsupportedType
  | unsupportedVersion
  deriving DecidableEq

inductive Failure
  | framing (error : QRFramingError)
  | cbor (error : StrictCborError)
  | trap
  deriving DecidableEq

section Base64Url

/-- `replacingOccurrences` of one character by another. -/
def replacing (old new : Char) (s : String) : String :=
  String.ofList (s.toList.map fun c => if c = old then new else c)

/-- `replacingOccurrences` of one character by nothing. -/
def removing (old : Char) (s : String) : String := String.ofList (s.toList.filter (· ≠ old))

/-- The text with padding to a multiple of four characters. -/
def padded (s : String) : String :=
  s ++ String.ofList (List.replicate ((4 - s.toList.length % 4) % 4) '=')

def base64EncodedString (data : List Byte) : String := padded (Base64.encode data)

def base64Url (data : List Byte) : String :=
  removing '=' (replacing '/' '_' (replacing '+' '-' (base64EncodedString data)))

end Base64Url

/-- Swift strings, which are compared and counted by characters, each of one or more Unicode
scalars, and the base64 decoder of Foundation. No other character is equal to one of ASCII. -/
structure Platform where
  characters : String → List (List Char)
  characters_flatten : ∀ s, (characters s).flatten = s.toList
  characters_ascii : ∀ s : String, (∀ c ∈ s.toList, c.toNat < 128 ∧ c ≠ '\r') →
    characters s = s.toList.map fun c => [c]
  base64Decoded : String → Option (List Byte)
  base64Decoded_encoded : ∀ data, base64Decoded (base64EncodedString data) = some data

variable (p : Platform)

def decodeBase64Url (value : String) : Option (List Byte) :=
  if ∀ character ∈ p.characters value,
      ∃ c ∈ character, character = [c] ∧ (c.isAlphanum = true ∨ c = '-' ∨ c = '_') then
    p.base64Decoded (padded (replacing '_' '/' (replacing '-' '+' value)))
  else none

/-- `Int` of a `UInt64`. -/
def toInt (n : U64) : Except Failure ℕ :=
  if n.val < 9223372036854775808 then .ok n.val else .error .trap

/-- A value of the CBOR reader. -/
def cbor {α : Type} (x : Except StrictCborError α) : Except Failure α := x.mapError .cbor

def decodeValues : List Item → Except Failure Frame
  | [version, type, transferId, digest, index, count, total, chunk] => do
      let version ← cbor (StrictCbor.exactUnsigned version)
      ensure (version = 1) (.framing .unsupportedVersion)
      let type ← cbor (StrictCbor.exactUnsigned type)
      ensure (type = 1) (.framing .unsupportedType)
      let index ← cbor (StrictCbor.exactUnsigned index) >>= toInt
      let count ← cbor (StrictCbor.exactUnsigned count) >>= toInt
      let total ← cbor (StrictCbor.exactUnsigned total) >>= toInt
      let chunk ← cbor (StrictCbor.anyBytes chunk)
      ensure ((1 ≤ count ∧ count ≤ maxQrFragments) ∧ index < count ∧
        (1 ≤ total ∧ total ≤ maxQrMessageBytes) ∧ chunk ≠ [] ∧ chunk.length ≤ defaultQrChunkBytes ∧
        chunk.length ≤ total) (.framing .malformedFrame)
      let transferId ← cbor (StrictCbor.exactBytes 16 transferId)
      let digest ← cbor (StrictCbor.exactBytes 32 digest)
      return ⟨transferId, digest, index, count, total, chunk⟩
  | _ => .error (.cbor .malformed)

def decode (value : String) : Except Failure Frame := do
  let characters := p.characters value
  let start := textPrefix.toList.map fun c => [c]
  ensure (characters.length ≤ maxEncodedFrameChars ∧ start <+: characters)
    (.framing .malformedFrame)
  let encoded := String.ofList (characters.drop start.length).flatten
  ensure (encoded ≠ "" ∧ ['='] ∉ p.characters encoded) (.framing .malformedFrame)
  let data ← okOr (decodeBase64Url p encoded) (.framing .malformedFrame)
  ensure (base64Url data = encoded) (.framing .malformedFrame)
  let values ← cbor (StrictCbor.decodeDefault data >>= StrictCbor.exactArray 8)
  decodeValues values

def errors : Errors Failure where
  poisoned := .framing .poisoned
  clockRollback := .framing .clockRollback
  timeout := .framing .timeout
  differentTransfer := .framing .differentTransfer
  conflictingFragment := .framing .conflictingFragment
  malformedFrame := .framing .malformedFrame
  digestMismatch := .framing .digestMismatch
  -- `+=` on `Int`
  overflow := .trap
  limit := 9223372036854775808

/-- `QRReassembler.push`. -/
def push (sha256 : List Byte → ProtocolDigest) (r : Reassembler) (encoded : String)
    (nowMilliseconds : ℤ) : Except Failure QrAssemblyStatus × Reassembler :=
  r.push errors sha256 (decode p) encoded nowMilliseconds

section Base64Url

private theorem map_spell {chars chars' : List Char} {f : Char → Char} (hmap : chars.map f = chars')
    (hfallback : f 'A' = 'A') (digits : List ℕ) :
    (DigitText.spell chars 'A' digits).map f = DigitText.spell chars' 'A' digits := by
  rw [DigitText.spell, DigitText.spell, List.map_map]
  apply List.map_congr_left
  intro d _
  have hget := List.getD_map (l := chars) (d := 'A') (n := d) f
  rw [hmap, hfallback] at hget
  exact hget.symm

private theorem replacing_toList (old new : Char) (s : String) :
    (replacing old new s).toList = s.toList.map fun c => if c = old then new else c := by
  rw [replacing, String.toList_ofList]

/-- The two characters in which the alphabets differ. -/
def toUrl (c : Char) : Char := if c = '+' then '-' else if c = '/' then '_' else c

private theorem replacing_url (s : String) :
    (replacing '/' '_' (replacing '+' '-' s)).toList = s.toList.map toUrl := by
  rw [replacing_toList, replacing_toList, List.map_map]
  apply List.map_congr_left
  intro c _
  simp only [Function.comp_apply, toUrl]
  by_cases hplus : c = '+'
  · simp [hplus]
  · simp [hplus]

private theorem encode_toUrl (data : List Byte) :
    (Base64.encode data).toList.map toUrl = (Base64.encodeUrl data).toList := by
  have hmap : Base64.alphabet.map toUrl = Base64.urlAlphabet := by decide +kernel
  simp only [Base64.encode, Base64.encodeUrl, Base64.encodeWith, String.toList_ofList]
  exact map_spell hmap (by decide) _

theorem base64Url_eq (data : List Byte) : base64Url data = Base64.encodeUrl data := by
  have hkept : ((Base64.encodeUrl data).toList.filter (· ≠ '=')) = (Base64.encodeUrl data).toList := by
    rw [List.filter_eq_self]
    intro c hc
    have hne : c ≠ '=' := fun heq => Base64.equals_not_mem_encodeUrl data (heq ▸ hc)
    simpa using hne
  apply String.toList_injective
  rw [base64Url, removing, String.toList_ofList, replacing_url, base64EncodedString, padded,
    String.toList_append, List.map_append, encode_toUrl, List.filter_append, hkept,
    String.toList_ofList, List.map_replicate]
  simp [toUrl]

/-- Without its padding the standard text is the unpadded one. -/
theorem removing_padded (data : List Byte) :
    removing '=' (base64EncodedString data) = Base64.encode data := by
  have hkept : ((Base64.encode data).toList.filter (· ≠ '=')) = (Base64.encode data).toList := by
    have hall : (Base64.alphabet.all fun c => c ≠ '=') = true := by decide +kernel
    rw [List.filter_eq_self]
    intro c hc
    exact List.all_eq_true.mp hall c (Base64.mem_encode hc)
  apply String.toList_injective
  rw [removing, String.toList_ofList, base64EncodedString, padded, String.toList_append,
    List.filter_append, hkept, String.toList_ofList]
  simp

theorem padded_encodeUrl (data : List Byte) :
    padded (replacing '_' '/' (replacing '-' '+' (Base64.encodeUrl data))) =
      base64EncodedString data := by
  have hback : (Base64.alphabet.all fun c => (if (if toUrl c = '-' then '+' else toUrl c) = '_'
      then '/' else if toUrl c = '-' then '+' else toUrl c) == c) = true := by
    decide +kernel
  have hsame : replacing '_' '/' (replacing '-' '+' (Base64.encodeUrl data)) =
      Base64.encode data := by
    apply String.toList_injective
    rw [replacing_toList, replacing_toList, ← encode_toUrl, List.map_map, List.map_map]
    conv_rhs => rw [← List.map_id (Base64.encode data).toList]
    apply List.map_congr_left
    intro c hc
    exact beq_iff_eq.mp (List.all_eq_true.mp hback c (Base64.mem_encode hc))
  rw [hsame, base64EncodedString]

end Base64Url

section Correctness

variable {p} {f : Core.Qr.Frame}

theorem decodeBase64Url_encodeUrl {data : List Byte}
    (h : p.characters (Base64.encodeUrl data) = (Base64.encodeUrl data).toList.map fun c => [c]) :
    decodeBase64Url p (Base64.encodeUrl data) = some data := by
  have hall : ∀ character ∈ p.characters (Base64.encodeUrl data),
      ∃ c ∈ character, character = [c] ∧ (c.isAlphanum = true ∨ c = '-' ∨ c = '_') := by
    have hletters : Base64.urlAlphabet.all
        (fun c => decide (c.isAlphanum = true ∨ c = '-' ∨ c = '_')) = true := by decide +kernel
    rw [h]
    intro character hcharacter
    obtain ⟨c, hc, rfl⟩ := List.mem_map.mp hcharacter
    have hletter := List.all_eq_true.mp hletters c (Base64.mem_encodeUrl hc)
    exact ⟨c, List.mem_singleton_self c, rfl, of_decide_eq_true hletter⟩
  rw [decodeBase64Url, if_pos hall, padded_encodeUrl, p.base64Decoded_encoded]

private theorem encodable_item {frame : Frame} (h : frame.Bounded) :
    Encodable 128 (StrictCbor.maximumDepth + 1) frame.item := by
  have hcount : frame.count < 2 ^ 64 := lt_of_le_of_lt h.count.2 (by decide)
  have hindex : frame.index < 2 ^ 64 := h.index.trans hcount
  have htotal : frame.totalLength < 2 ^ 64 := lt_of_le_of_lt h.total.2 (by decide)
  have hid : frame.transferId.1.length < 2 ^ 64 := by rw [frame.transferId.2]; decide
  have hdigest : frame.digest.1.length < 2 ^ 64 := by rw [frame.digest.2]; decide
  have hchunk : frame.chunk.length < 2 ^ 64 := lt_of_le_of_lt h.chunk.2.1 (by decide)
  have hlimit : 8 ≤ 128 := by decide
  have hlength : 8 < 2 ^ 64 := by decide
  refine .array hlimit hlength ?_
  simp only [List.forall_mem_cons, List.not_mem_nil, false_imp_iff, implies_true, and_true]
  exact ⟨.unsigned (by decide), .unsigned (by decide), .bytes hid, .bytes hdigest,
    .unsigned hindex, .unsigned hcount, .unsigned htotal, .bytes hchunk⟩

private theorem toInt_of_lt {n : ℕ} (hn : n < 18446744073709551616) (h : n < 9223372036854775808) :
    toInt ⟨n, hn⟩ = .ok n :=
  if_pos h

/-- A frame within the bounds is read from its own values. -/
theorem decodeValues_item {frame : Frame} (h : frame.Bounded) :
    decodeValues [.unsigned 1, .unsigned 1, .bytes frame.transferId, .bytes frame.digest,
      .unsigned frame.index, .unsigned frame.count, .unsigned frame.totalLength,
      .bytes frame.chunk] = .ok frame := by
  have hcount : frame.count < 9223372036854775808 := lt_of_le_of_lt h.count.2 (by decide)
  have hindex : frame.index < 9223372036854775808 := h.index.trans hcount
  have htotal : frame.totalLength < 9223372036854775808 := lt_of_le_of_lt h.total.2 (by decide)
  have hread {n : ℕ} (hn : n < 9223372036854775808) :
      cbor (StrictCbor.exactUnsigned (.unsigned n)) >>= toInt = .ok n := by
    have hlarge : n < 18446744073709551616 := hn.trans (by decide)
    have hunsigned : StrictCbor.exactUnsigned (.unsigned n) = .ok ⟨n, hlarge⟩ := dif_pos hlarge
    rw [hunsigned]
    exact toInt_of_lt hlarge hn
  have hone : cbor (StrictCbor.exactUnsigned (.unsigned 1)) = .ok 1 := rfl
  have hid : cbor (StrictCbor.exactBytes 16 (.bytes frame.transferId.1)) = .ok frame.transferId := by
    have hexact : StrictCbor.exactBytes 16 (.bytes frame.transferId.1) = .ok frame.transferId :=
      dif_pos frame.transferId.2
    rw [hexact]
    rfl
  have hdigest : cbor (StrictCbor.exactBytes 32 (.bytes frame.digest.1)) = .ok frame.digest := by
    have hexact : StrictCbor.exactBytes 32 (.bytes frame.digest.1) = .ok frame.digest :=
      dif_pos frame.digest.2
    rw [hexact]
    rfl
  have hchunk : cbor (StrictCbor.anyBytes (.bytes frame.chunk)) = .ok frame.chunk := rfl
  have hchecked := ensure_true (Failure.framing .malformedFrame) (frame.bounded_iff.mp h)
  simp only [decodeValues, hone, ok_bind, ensure_true _ True.intro, hread hindex, hread hcount,
    hread htotal, hchunk, hid, hdigest, hchecked]
  rfl

theorem cbor_eq_ok {α : Type} {x : Except StrictCborError α} {a : α} :
    cbor x = .ok a ↔ x = .ok a := by
  cases x <;> simp [cbor, Except.mapError]

theorem toInt_eq_ok {n : U64} {k : ℕ} : toInt n = .ok k ↔ n.val < 9223372036854775808 ∧ n.val = k := by
  rw [toInt]
  split_ifs with h <;> simp [h]

/-- What the values of a frame are that is read. -/
theorem decodeValues_eq_ok {values : List Item} {frame : Frame}
    (h : decodeValues values = .ok frame) : frame.Bounded ∧ .array values = frame.item := by
  unfold decodeValues at h
  split at h
  · simp only [bind_eq_ok, ensure_eq_ok, exists_const, pure_eq_ok, Except.ok.injEq, cbor_eq_ok,
      StrictCbor.exactUnsigned_eq_ok, StrictCbor.exactBytes_eq_ok, StrictCbor.anyBytes_eq_ok,
      toInt_eq_ok] at h
    obtain ⟨_, hversion, rfl, _, htype, rfl, index, ⟨_, hindex, -, rfl⟩, count, ⟨_, hcount, -, rfl⟩,
      total, ⟨_, htotal, -, rfl⟩, chunk, hchunk, hchecked, transferId, hid, digest, hdigest, rfl⟩ := h
    refine ⟨Frame.bounded_iff _ |>.mpr hchecked, ?_⟩
    rw [hversion, htype, hindex, hcount, htotal, hchunk, hid, hdigest]
    rfl
  · cases h

theorem characters_text (f : Core.Qr.Frame) :
    p.characters f.text = f.text.toList.map fun c => [c] :=
  p.characters_ascii f.text fun _ hc => Core.Qr.Frame.text_ascii hc

theorem characters_encodeUrl (f : Core.Qr.Frame) : p.characters (Base64.encodeUrl f.bytes) =
    (Base64.encodeUrl f.bytes).toList.map fun c => [c] := by
  refine p.characters_ascii _ fun c hc => Core.Qr.Frame.text_ascii (f := f) ?_
  rw [Core.Qr.Frame.text, String.toList_append]
  exact List.mem_append_right _ hc

theorem decode_text (h : f.Valid) : decode p f.text = .ok (ofCore f) := by
  have hlength : (p.characters f.text).length ≤ maxEncodedFrameChars := by
    rw [characters_text, List.length_map]
    exact Core.Qr.Frame.text_length h
  have hstarts : textPrefix.toList.map (fun c => [c]) <+: p.characters f.text := by
    rw [characters_text]
    exact (Core.Qr.Frame.prefix_text f).map _
  have hpayload : String.ofList ((p.characters f.text).drop
      (textPrefix.toList.map fun c => [c]).length).flatten = Base64.encodeUrl f.bytes := by
    rw [characters_text, ← List.map_drop, List.length_map, String.length_toList,
      ← Core.Qr.Frame.payload_text, ← List.flatMap_def, List.flatMap_singleton']
  have hequals : ['='] ∉ p.characters (Base64.encodeUrl f.bytes) := by
    rw [characters_encodeUrl]
    intro hmem
    obtain ⟨c, hc, heq⟩ := List.mem_map.mp hmem
    obtain rfl : c = '=' := by simpa using heq
    exact Base64.equals_not_mem_encodeUrl f.bytes hc
  have hnonempty := Base64.encodeUrl_ne_empty (Core.Qr.Frame.bytes_ne_nil f)
  have hdata := decodeBase64Url_encodeUrl (characters_encodeUrl (p := p) f)
  have hsize : f.bytes.length ≤ 65536 := (Core.Qr.Frame.bytes_length_le h).trans (by decide)
  have hitem : StrictCbor.decodeDefault f.bytes = .ok (ofCore f).item := by
    rw [← ofCore_item] at hsize ⊢
    exact decode_encode_item (encodable_item (ofCore_bounded h)) (by decide) hsize
  have hvalues : cbor (StrictCbor.decodeDefault f.bytes >>= StrictCbor.exactArray 8) =
      .ok [.unsigned 1, .unsigned 1, .bytes (ofCore f).transferId, .bytes (ofCore f).digest,
        .unsigned (ofCore f).index, .unsigned (ofCore f).count, .unsigned (ofCore f).totalLength,
        .bytes (ofCore f).chunk] := by
    rw [hitem]
    rfl
  have hurl := base64Url_eq f.bytes
  rw [decode]
  simp only [ensure_true _ (And.intro hlength hstarts), ok_bind, hpayload,
    ensure_true _ (And.intro hnonempty hequals), hdata, okOr_some, ensure_true _ hurl, hvalues]
  exact decodeValues_item (ofCore_bounded h)

/-- What follows the prefix, by characters. -/
private theorem eq_of_characters {value : String}
    (h : textPrefix.toList.map (fun c => [c]) <+: p.characters value) :
    value = textPrefix ++ String.ofList ((p.characters value).drop
      (textPrefix.toList.map fun c => [c]).length).flatten := by
  obtain ⟨rest, hrest⟩ := h
  have hflatten := p.characters_flatten value
  rw [← hrest, List.flatten_append, ← List.flatMap_def, List.flatMap_singleton'] at hflatten
  rw [← hrest, List.drop_left]
  apply String.toList_injective
  rw [String.toList_append, String.toList_ofList, hflatten]

/-- What is read before the values of a frame are looked at. -/
theorem decode_values {value : String} {data : List Byte} {values : List Item}
    (hstarts : textPrefix.toList.map (fun c => [c]) <+: p.characters value)
    (hpayload : base64Url data = String.ofList ((p.characters value).drop
      (textPrefix.toList.map fun c => [c]).length).flatten)
    (hvalues : (StrictCbor.decodeDefault data >>= StrictCbor.exactArray 8) = .ok values) :
    value = textPrefix ++ Base64.encodeUrl data ∧
      StrictCbor.decodeDefault data = .ok (.array values) := by
  obtain ⟨item, hitem, harray⟩ := bind_eq_ok.mp hvalues
  obtain ⟨rfl, -⟩ := StrictCbor.exactArray_eq_ok.mp harray
  exact ⟨by rw [eq_of_characters hstarts, ← hpayload, base64Url_eq], hitem⟩

theorem decode_eq_ok {value : String} {frame : Frame} (h : decode p value = .ok frame) :
    ∃ f : Core.Qr.Frame, f.Valid ∧ value = f.text := by
  simp only [decode, bind_eq_ok, ensure_eq_ok, exists_const, okOr_eq_ok, cbor_eq_ok] at h
  obtain ⟨⟨-, hstarts⟩, -, data, -, hpayload, values, hvalues, hframe⟩ := h
  obtain ⟨htext, hdata⟩ := decode_values hstarts hpayload (bind_eq_ok.mpr hvalues)
  obtain ⟨hbounded, hitem⟩ := decodeValues_eq_ok hframe
  obtain ⟨f, hvalid, rfl⟩ := hbounded.exists_core
  refine ⟨f, hvalid, ?_⟩
  rw [htext, ← StrictCbor.encode_of_decode hdata, hitem, ofCore_item, Core.Qr.Frame.text]

/-- The integers of the frame a string carries fit `Int`. -/
def FieldsBelow (value : String) : Prop :=
  ∀ data items, value = textPrefix ++ Base64.encodeUrl data →
    StrictCbor.decodeDefault data = .ok (.array items) →
    ∀ n, Item.unsigned n ∈ items → n < 9223372036854775808

private theorem cbor_ne_trap {α : Type} {x : Except StrictCborError α} : cbor x ≠ .error .trap := by
  cases x <;> simp [cbor, Except.mapError]

private theorem toInt_trap {n : U64} {error : Failure} (h : toInt n = .error error) :
    9223372036854775808 ≤ n.val := by
  rw [toInt] at h
  split_ifs at h with hlt
  exact not_lt.mp hlt

/-- Only an integer that `Int` does not hold ends the process. -/
theorem decodeValues_trap {values : List Item} (h : decodeValues values = .error .trap) :
    ∃ n, Item.unsigned n ∈ values ∧ 9223372036854775808 ≤ n := by
  unfold decodeValues at h
  split at h
  · simp only [bind_eq_error, ensure_eq_error, cbor_ne_trap, false_or, and_false,
      exists_false, reduceCtorEq, or_false, pure_eq_ok, cbor_eq_ok,
      StrictCbor.exactUnsigned_eq_ok] at h
    obtain ⟨_, -, _, -, _, -, _, -, hindex | ⟨_, -, hcount | ⟨_, -, htotal⟩⟩⟩ := h
    · obtain ⟨n, rfl, htrap⟩ := hindex
      exact ⟨n.val, by simp, toInt_trap htrap⟩
    · obtain ⟨n, rfl, htrap⟩ := hcount
      exact ⟨n.val, by simp, toInt_trap htrap⟩
    · obtain ⟨n, rfl, htrap⟩ := htotal
      exact ⟨n.val, by simp, toInt_trap htrap⟩
  · simp at h

theorem decode_ne_trap {value : String} (h : FieldsBelow value) :
    decode p value ≠ .error .trap := by
  intro htrap
  simp only [decode, bind_eq_error, ensure_eq_error, okOr_eq_error, cbor_ne_trap, false_or,
    and_false, reduceCtorEq, ensure_eq_ok, okOr_eq_ok, exists_const, cbor_eq_ok] at htrap
  obtain ⟨⟨-, hstarts⟩, -, data, -, hpayload, values, hvalues, hframe⟩ := htrap
  obtain ⟨n, hn, hlarge⟩ := decodeValues_trap hframe
  obtain ⟨htext, hdata⟩ := decode_values hstarts hpayload hvalues
  have hsmall := h data values htext hdata n hn
  omega

/-- The Swift decoder accepts the frames that the desktop accepts. -/
theorem decode_decodes (m : QrMinicbor) {value : String} (h : FieldsBelow value) :
    Decodes (· ≠ .trap) m (decode p) value := by
  refine decodes_of_text (fun error herror => ?_) (fun f hvalid htext => ?_)
    fun frame hframe => decode_eq_ok hframe
  · intro htrap
    exact decode_ne_trap h (htrap ▸ herror)
  · rw [htext]
    exact decode_text hvalid

theorem fieldsBelow_text (h : f.Valid) : FieldsBelow f.text := by
  intro data items htext hdata n hn
  have hbytes : f.bytes = data := by
    rw [Core.Qr.Frame.text] at htext
    exact Base64.encodeUrl_injective ((String.append_right_inj _).mp htext)
  have hread := decode_encode_item (encodable_item (ofCore_bounded h)) (by decide)
    (show _ ≤ 65536 from ?_)
  · rw [ofCore_item, hbytes] at hread
    rw [StrictCbor.decodeDefault, hread] at hdata
    have hitems := Item.array.inj (Except.ok.inj hdata)
    subst hitems
    have hindex := f.index.isLt
    have hcount := f.count.isLt
    have htotal := h.total_lt
    simp only [ofCore, List.mem_cons, Item.unsigned.injEq, reduceCtorEq, false_or,
      List.not_mem_nil, or_false] at hn
    omega
  · rw [ofCore_item]
    exact (Core.Qr.Frame.bytes_length_le h).trans (by decide)

theorem errors_ordinary : errors.Ordinary (· ≠ .trap) :=
  ⟨by decide, by decide, by decide, by decide, by decide, by decide, by decide, by decide⟩

end Correctness

end AgePluginPhone.Ios.Qr
