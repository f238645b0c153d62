import AgePluginPhone.Core.QrFraming

/-!
# The text of a QR frame

A frame is decoded exactly from its own text, which every frame within the bounds has.
-/

namespace AgePluginPhone.Core.Qr

open Library

namespace Frame

variable {m : QrMinicbor} {f : Frame}

def text (f : Frame) : String := textPrefix ++ Base64.encodeUrl f.bytes

private theorem fixedBytes_reads {n : ℕ} (hn : n < 2 ^ 64) (b : Bytes n) :
    Reads (fixedBytes m n) (encodeBytes b) b := by
  have hread : Reads (readField QrError.malformedFrame m.bytes) (encodeBytes b) b.1 :=
    readField_reads _ (m.bytes_encodeBytes b.1 · (by rw [b.2]; exact hn))
  apply hread.bind_end
  rw [dif_pos b.2]
  exact Reads.pure b

theorem Valid.total_lt (h : f.Valid) : f.totalLen < 4294967296 :=
  h.total.2.trans_lt (by decide)

theorem fields_reads (h : f.Valid) : Reads (fields m) f.bytes f := by
  have hchunk : f.chunk.length < 2 ^ 64 := h.chunk.2.1.trans_lt (by decide)
  have htotal := m.u32_encodeUnsigned ⟨f.totalLen, h.total_lt⟩
  apply (readField_reads _ (m.array_encodeArray 8 · (by decide))).bind
  apply (readCheck_reads _ rfl).bind_nil
  apply (readField_reads _ (m.u16_encodeUnsigned frameVersion)).bind
  apply (readCheck_reads _ rfl).bind_nil
  apply (readField_reads _ (m.u16_encodeUnsigned frameType)).bind
  apply (readCheck_reads _ rfl).bind_nil
  apply (fixedBytes_reads (by decide) f.transferId).bind
  apply (fixedBytes_reads (by decide) f.digest).bind
  apply (readField_reads _ (m.u16_encodeUnsigned f.index)).bind
  apply (readField_reads _ (m.u16_encodeUnsigned f.count)).bind
  apply (readField_reads _ htotal).bind
  apply (readField_reads _ (m.bytes_encodeBytes f.chunk · hchunk)).bind_end
  exact Reads.pure f

theorem encodeCbor_eq_ok {encoded : List Byte} :
    f.encodeCbor = .ok encoded ↔ f.totalLen < 4294967296 ∧ encoded = f.bytes := by
  simp only [encodeCbor, bind_eq_ok, ensure_eq_ok, exists_const, pure_eq_ok, Except.ok.injEq,
    eq_comm (a := f.bytes)]

/-- The decoder accepts exactly the array of a frame within the bounds. -/
theorem decodeCbor_eq_ok {encoded : List Byte} :
    decodeCbor m encoded = .ok f ↔ f.Valid ∧ encoded = f.bytes := by
  simp only [decodeCbor, bind_eq_ok, ensure_eq_ok, exists_const, pure_eq_ok, Except.ok.injEq,
    encodeCbor_eq_ok]
  constructor
  · intro hparts
    obtain ⟨⟨found, rest⟩, -, ⟨-, hvalid⟩, canonical, ⟨-, hbytes⟩, hcanonical, hfound⟩ := hparts
    simp only at hvalid hbytes hfound
    subst hfound
    exact ⟨hvalid, by rw [← hcanonical, hbytes]⟩
  · intro hparts
    obtain ⟨hvalid, hencoded⟩ := hparts
    subst hencoded
    exact ⟨(f, []), (fields_reads hvalid).run, ⟨rfl, hvalid⟩, f.bytes, ⟨hvalid.total_lt, rfl⟩, rfl, rfl⟩

theorem bytes_length_le (h : f.Valid) : f.bytes.length ≤ 729 := by
  have harray := Cbor.head_length_le 4 8
  have hversion := Cbor.head_length_le 0 frameVersion.val
  have hkind := Cbor.head_length_le 0 frameType.val
  have hid := Cbor.head_length_le 2 f.transferId.1.length
  have hdigest := Cbor.head_length_le 2 f.digest.1.length
  have hindex := Cbor.head_length_le 0 f.index.val
  have hcount := Cbor.head_length_le 0 f.count.val
  have htotal := Cbor.head_length_le 0 f.totalLen
  have hchunk := Cbor.head_length_le 2 f.chunk.length
  have hbound : f.chunk.length ≤ 600 := h.chunk.2.1
  simp only [bytes, encodeArray, encodeUnsigned, encodeBytes, List.length_append, f.transferId.2,
    f.digest.2] at hid hdigest ⊢
  omega

theorem bytes_ne_nil (f : Frame) : f.bytes ≠ [] := by
  simp [bytes, encodeArray, Cbor.head_ne_nil]

theorem utf8_text_length (h : f.Valid) : (utf8 f.text).length ≤ maxEncodedFrameChars := by
  have hlength := bytes_length_le h
  have hpayload := Base64.encodeUrl_length f.bytes
  have hstarts : (utf8 textPrefix).length = 14 := by decide +kernel
  have happend : (utf8 f.text).length = (utf8 textPrefix).length +
      (utf8 (Base64.encodeUrl f.bytes)).length := by
    simp [text, utf8, String.toByteArray_append]
  rw [happend, hstarts, hpayload, maxEncodedFrameChars]
  omega

/-- The characters a frame is written with. -/
def textAlphabet : List Char := textPrefix.toList ++ Base64.urlAlphabet

theorem mem_text {c : Char} (h : c ∈ f.text.toList) : c ∈ textAlphabet := by
  rw [text, String.toList_append] at h
  rcases List.mem_append.mp h with hstarts | hpayload
  · exact List.mem_append_left _ hstarts
  · exact List.mem_append_right _ (Base64.mem_encodeUrl hpayload)

/-- The text of a frame is ASCII without line ends. -/
theorem text_ascii {c : Char} (h : c ∈ f.text.toList) : c.toNat < 128 ∧ c ≠ '\r' := by
  have hall : textAlphabet.all (fun c => decide (c.toNat < 128 ∧ c ≠ '\r')) = true := by
    decide +kernel
  exact of_decide_eq_true (List.all_eq_true.mp hall c (mem_text h))

theorem text_length (h : f.Valid) : f.text.toList.length ≤ maxEncodedFrameChars := by
  have hsize : ∀ c ∈ f.text.toList, c.utf8Size = 1 := by
    have hall : textAlphabet.all (fun c => c.utf8Size == 1) = true := by decide +kernel
    intro c hc
    exact beq_iff_eq.mp (List.all_eq_true.mp hall c (mem_text hc))
  have hlength := utf8_text_length h
  rwa [← String.ofList_toList (s := f.text), DigitText.utf8_ofList_length hsize] at hlength

theorem encodeText_eq_ok (h : f.Valid) : f.encodeText = .ok f.text := by
  have hcbor := encodeCbor_eq_ok.mpr ⟨h.total_lt, rfl⟩
  have hlength := ensure_true QrError.chunkSize (utf8_text_length h)
  rw [text] at hlength
  rw [encodeText, hcbor, ok_bind]
  dsimp only
  rw [hlength]
  rfl

theorem payload_text (f : Frame) :
    String.ofList (f.text.toList.drop textPrefix.length) = Base64.encodeUrl f.bytes := by
  rw [text, String.toList_append, ← String.length_toList, List.drop_left, String.ofList_toList]

theorem prefix_text (f : Frame) : textPrefix.toList <+: f.text.toList := by
  rw [text, String.toList_append]
  exact List.prefix_append _ _

/-- A string with the prefix is the prefix and the rest. -/
theorem eq_of_prefix {encoded : String} (h : textPrefix.toList <+: encoded.toList) :
    encoded = textPrefix ++ String.ofList (encoded.toList.drop textPrefix.length) := by
  obtain ⟨rest, hrest⟩ := h
  rw [← hrest, ← String.length_toList, List.drop_left]
  apply String.toList_injective
  rw [String.toList_append, String.toList_ofList, hrest]

/-- The decoder accepts exactly the text of a frame within the bounds. -/
theorem decodeText_eq_ok {encoded : String} :
    decodeText m encoded = .ok f ↔ f.Valid ∧ encoded = f.text := by
  simp only [decodeText, bind_eq_ok, ensure_eq_ok, exists_const, okOr_eq_ok,
    Base64.decodeUrl_eq_some, decodeCbor_eq_ok]
  constructor
  · intro hparts
    obtain ⟨⟨-, hstarts⟩, -, decoded, hpayload, -, hvalid, hbytes⟩ := hparts
    refine ⟨hvalid, ?_⟩
    rw [text, ← hbytes, ← hpayload]
    exact eq_of_prefix hstarts
  · intro hparts
    obtain ⟨hvalid, hencoded⟩ := hparts
    subst hencoded
    rw [payload_text]
    refine ⟨⟨utf8_text_length hvalid, prefix_text f⟩, ⟨?_, ?_⟩, f.bytes, rfl, rfl, hvalid, rfl⟩
    · exact Base64.encodeUrl_ne_empty (bytes_ne_nil f)
    · exact Base64.equals_not_mem_encodeUrl f.bytes

section Failures

/-- What a string that is not the text of a frame is refused with. -/
inductive Unframed : QrError → Prop
  | malformed : Unframed .malformedFrame
  | version : Unframed .unsupportedVersion
  | type : Unframed .unsupportedType

private theorem fixedBytes_failsOnly (n : ℕ) : FailsOnly (fixedBytes m n) Unframed := by
  apply (readField_failsOnly _ Unframed.malformed).bind
  intro bytes
  by_cases hlength : bytes.length = n
  · rw [dif_pos hlength]
    exact FailsOnly.pure _
  · rw [dif_neg hlength]
    intro input failure hfailure
    cases hfailure
    exact .malformed

theorem fields_failsOnly : FailsOnly (fields m) Unframed := by
  apply (readField_failsOnly _ Unframed.malformed).bind
  intro length
  apply (readCheck_failsOnly _ Unframed.malformed).bind
  intro _
  apply (readField_failsOnly _ Unframed.malformed).bind
  intro version
  apply (readCheck_failsOnly _ Unframed.version).bind
  intro _
  apply (readField_failsOnly _ Unframed.malformed).bind
  intro kind
  apply (readCheck_failsOnly _ Unframed.type).bind
  intro _
  apply (fixedBytes_failsOnly 16).bind
  intro transferId
  apply (fixedBytes_failsOnly 32).bind
  intro digest
  apply (readField_failsOnly _ Unframed.malformed).bind
  intro index
  apply (readField_failsOnly _ Unframed.malformed).bind
  intro count
  apply (readField_failsOnly _ Unframed.malformed).bind
  intro totalLen
  apply (readField_failsOnly _ Unframed.malformed).bind
  intro chunk
  exact FailsOnly.pure _

theorem decodeCbor_unframed {encoded : List Byte} {failure : QrError}
    (h : decodeCbor m encoded = .error failure) : Unframed failure := by
  rcases bind_eq_error.mp h with hfields | ⟨found, -, h⟩
  · exact fields_failsOnly encoded failure hfields
  · rcases bind_eq_error.mp h with hvalid | ⟨_, hvalid, h⟩
    · rw [← (ensure_eq_error.mp hvalid).2]
      exact .malformed
    · have hbounds := (ensure_eq_ok.mp hvalid).2
      rw [encodeCbor_eq_ok.mpr ⟨hbounds.total_lt, rfl⟩, ok_bind] at h
      rcases bind_eq_error.mp h with hcanonical | ⟨_, -, h⟩
      · rw [← (ensure_eq_error.mp hcanonical).2]
        exact .malformed
      · cases h

/-- A string that is not the text of a frame is refused as malformed or for its version or type. -/
theorem decodeText_unframed {encoded : String} {failure : QrError}
    (h : decodeText m encoded = .error failure) : Unframed failure := by
  rcases bind_eq_error.mp h with hstart | ⟨_, -, h⟩
  · rw [← (ensure_eq_error.mp hstart).2]
    exact .malformed
  · rcases bind_eq_error.mp h with hpayload | ⟨_, -, h⟩
    · rw [← (ensure_eq_error.mp hpayload).2]
      exact .malformed
    · rcases bind_eq_error.mp h with hdecoded | ⟨decoded, -, h⟩
      · rw [← (okOr_eq_error.mp hdecoded).2]
        exact .malformed
      · rcases bind_eq_error.mp h with hcanonical | ⟨_, -, h⟩
        · rw [← (ensure_eq_error.mp hcanonical).2]
          exact .malformed
        · exact decodeCbor_unframed h

end Failures

end Frame

end AgePluginPhone.Core.Qr
