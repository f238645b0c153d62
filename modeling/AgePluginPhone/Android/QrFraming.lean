import AgePluginPhone.Phone.QrReassembly

/-!
# QR framing on Android

The Kotlin decoder of a frame, and the reassembler of the phones with its errors.
-/

namespace AgePluginPhone.Android.Qr

open Library Cbor AgePluginPhone.Core AgePluginPhone.Phone.Qr
open AgePluginPhone.Core.Qr hiding Frame

inductive Category
  | chunkSize
  | clockRollback
  | conflictingFragment
  | differentTransfer
  | digestMismatch
  | malformedFrame
  | messageSize
  | poisoned
  | timeout
  | tooManyFragments
  | unsupportedType
  | unsupportedVersion
  deriving DecidableEq

/-- Jackson's CBOR tree reader, whose writer emits the shortest form, and the decoder of
`java.util.Base64` for base64url. `readTree` yields `none` also for trees with a node kind that
no frame has. -/
structure Platform where
  readTree : List Byte → Option Item
  readTree_encode : ∀ item, item.Bounded 2 → readTree item.encode = some item
  decodeUrl : String → Option (List Byte)
  decodeUrl_encodeUrl : ∀ content, decodeUrl (Base64.encodeUrl content) = some content

/-- `String.length`, in UTF-16 units. -/
def utf16Length (s : String) : ℕ :=
  (s.toList.map fun c => if c.toNat < 65536 then 1 else 2).sum

def maxInt : ℕ := 2147483647

def integer : Item → Except Category ℕ
  | .unsigned n => if n ≤ maxInt then .ok n else .error .malformedFrame
  | _ => .error .malformedFrame

/-- `bytes` with a size. -/
def exactBytes (size : ℕ) : Item → Except Category (Bytes size)
  | .bytes content =>
      if h : content.length = size then .ok ⟨content, h⟩ else .error .malformedFrame
  | _ => .error .malformedFrame

/-- `bytes` without a size. -/
def anyBytes : Item → Except Category (List Byte)
  | .bytes content => .ok content
  | _ => .error .malformedFrame

def encodeCbor (frame : Frame) : List Byte := frame.item.encode

/-- The elements of a frame's array. -/
def decodeNodes (encodedBytes : List Byte) : Item → Except Category Frame
  | .array [versionNode, typeNode, idNode, digestNode, indexNode, countNode, totalNode,
      chunkNode] => do
      let version ← integer versionNode
      ensure (version = 1) .unsupportedVersion
      let type ← integer typeNode
      ensure (type = 1) .unsupportedType
      let transferId ← exactBytes 16 idNode
      let digest ← exactBytes 32 digestNode
      let index ← integer indexNode
      let count ← integer countNode
      let totalLength ← integer totalNode
      let chunk ← anyBytes chunkNode
      let frame : Frame := ⟨transferId, digest, index, count, totalLength, chunk⟩
      ensure (frame.Bounded ∧ encodeCbor frame = encodedBytes) .malformedFrame
      return frame
  | _ => .error .malformedFrame

variable (p : Platform)

def decode (encoded : String) : Except Category Frame := do
  ensure (utf16Length encoded ≤ maxEncodedFrameChars ∧ textPrefix.toList <+: encoded.toList)
    .malformedFrame
  let payload := String.ofList (encoded.toList.drop textPrefix.length)
  ensure (payload ≠ "" ∧ '=' ∉ payload.toList) .malformedFrame
  let encodedBytes ← okOr (p.decodeUrl payload) .malformedFrame
  ensure (Base64.encodeUrl encodedBytes = payload) .malformedFrame
  let nodes ← okOr (p.readTree encodedBytes) .malformedFrame
  decodeNodes encodedBytes nodes

def errors : Errors Category where
  poisoned := .poisoned
  clockRollback := .clockRollback
  timeout := .timeout
  differentTransfer := .differentTransfer
  conflictingFragment := .conflictingFragment
  malformedFrame := .malformedFrame
  digestMismatch := .digestMismatch
  -- `Math.addExact` on `Int`
  overflow := .malformedFrame
  limit := 2147483648

/-- `QrReassembler.push`. -/
def push (sha256 : List Byte → ProtocolDigest) (r : Reassembler) (encoded : String) (nowMs : ℤ) :
    Except Category QrAssemblyStatus × Reassembler :=
  r.push errors sha256 (decode p) encoded nowMs

section Correctness

variable {p} {f : Core.Qr.Frame}

private theorem bounded_ofCore (h : f.Valid) : (ofCore f).item.Bounded 2 := by
  have hlength : 8 < 2 ^ 64 := by decide
  refine .array hlength ?_
  have hid : f.transferId.1.length < 2 ^ 64 := by rw [f.transferId.2]; decide
  have hdigest : f.digest.1.length < 2 ^ 64 := by rw [f.digest.2]; decide
  have hindex : f.index.val < 2 ^ 64 := f.index.isLt.trans (by decide)
  have hcount : f.count.val < 2 ^ 64 := f.count.isLt.trans (by decide)
  have htotal : f.totalLen < 2 ^ 64 := h.total_lt.trans (by decide)
  have hchunk : f.chunk.length < 2 ^ 64 := lt_of_le_of_lt h.chunk.2.1 (by decide)
  simp only [List.forall_mem_cons, List.not_mem_nil, false_imp_iff, implies_true, and_true]
  exact ⟨.unsigned (by decide), .unsigned (by decide), .bytes hid, .bytes hdigest,
    .unsigned hindex, .unsigned hcount, .unsigned htotal, .bytes hchunk⟩

private theorem integer_unsigned {n : ℕ} (h : n ≤ maxInt) : integer (.unsigned n) = .ok n :=
  if_pos h

/-- A frame within the bounds is read from its own array. -/
theorem decodeNodes_item {frame : Frame} (h : frame.Bounded) :
    decodeNodes frame.item.encode frame.item = .ok frame := by
  have hcount : frame.count ≤ maxInt := h.count.2.trans (by decide)
  have hindex : frame.index ≤ maxInt := h.index.le.trans hcount
  have htotal : frame.totalLength ≤ maxInt := h.total.2.trans (by decide)
  have hid : exactBytes 16 (.bytes frame.transferId.1) = .ok frame.transferId :=
    dif_pos frame.transferId.2
  have hdigest : exactBytes 32 (.bytes frame.digest.1) = .ok frame.digest := dif_pos frame.digest.2
  have hone : integer (.unsigned 1) = .ok 1 := rfl
  have hchecked := ensure_true Category.malformedFrame
    (show frame.Bounded ∧ encodeCbor frame = frame.item.encode from ⟨h, rfl⟩)
  simp only [decodeNodes, Frame.item, hone, ok_bind, ensure_true _ True.intro, hid, hdigest,
    integer_unsigned hindex, integer_unsigned hcount, integer_unsigned htotal, anyBytes]
  simp only [Frame.item] at hchecked
  rw [hchecked]
  rfl

theorem decodeNodes_eq_ok {encodedBytes : List Byte} {node : Item} {frame : Frame}
    (h : decodeNodes encodedBytes node = .ok frame) :
    frame.Bounded ∧ frame.item.encode = encodedBytes := by
  unfold decodeNodes at h
  split at h
  · simp only [bind_eq_ok, ensure_eq_ok, exists_const, pure_eq_ok, Except.ok.injEq] at h
    obtain ⟨_, -, -, _, -, -, transferId, -, digest, -, index, -, count, -, totalLength, -, chunk, -,
      hchecked, rfl⟩ := h
    exact hchecked
  · cases h

theorem utf16Length_text (h : f.Valid) : utf16Length f.text ≤ maxEncodedFrameChars := by
  have hsmall : ∀ c ∈ f.text.toList, (if c.toNat < 65536 then 1 else 2) = 1 :=
    fun c hc => if_pos ((Core.Qr.Frame.text_ascii hc).1.trans (by decide))
  rw [utf16Length, List.map_congr_left hsmall, List.map_const', List.sum_replicate, smul_eq_mul,
    Nat.mul_one]
  exact Core.Qr.Frame.text_length h

/-- The Kotlin decoder accepts the frames that the desktop accepts. -/
theorem decode_decodes (m : QrMinicbor) (encoded : String) :
    Decodes (fun _ => True) m (decode p) encoded := by
  refine decodes_of_text (fun _ _ => True.intro) (fun f hvalid htext => ?_) (fun frame hframe => ?_)
  · subst htext
    have hread := p.readTree_encode _ (bounded_ofCore hvalid)
    have hnodes := decodeNodes_item (ofCore_bounded hvalid)
    rw [ofCore_item] at hread hnodes
    have hpayload := And.intro (Base64.encodeUrl_ne_empty (Core.Qr.Frame.bytes_ne_nil f))
      (Base64.equals_not_mem_encodeUrl f.bytes)
    rw [decode, ensure_true _ ⟨utf16Length_text hvalid, Core.Qr.Frame.prefix_text f⟩, ok_bind]
    simp only [Core.Qr.Frame.payload_text, ensure_true _ hpayload, p.decodeUrl_encodeUrl, okOr_some,
      ok_bind, ensure_true _ True.intro, hread]
    exact hnodes
  · simp only [decode, bind_eq_ok, ensure_eq_ok, exists_const, okOr_eq_ok] at hframe
    obtain ⟨⟨-, hstarts⟩, -, encodedBytes, -, hpayload, nodes, -, hnodes⟩ := hframe
    obtain ⟨hbounded, hitem⟩ := decodeNodes_eq_ok hnodes
    obtain ⟨f, hvalid, rfl⟩ := hbounded.exists_core
    rw [ofCore_item] at hitem
    refine ⟨f, hvalid, ?_⟩
    rw [Core.Qr.Frame.text, hitem, hpayload]
    exact Core.Qr.Frame.eq_of_prefix hstarts

theorem errors_ordinary : errors.Ordinary fun _ => True :=
  ⟨True.intro, True.intro, True.intro, True.intro, True.intro, True.intro, True.intro, by decide⟩

end Correctness

end AgePluginPhone.Android.Qr
