import AgePluginPhone.Core.Minicbor
import AgePluginPhone.Core.Protocol
import AgePluginPhone.Library.Base64
import AgePluginPhone.Library.Fragments
import AgePluginPhone.Library.Reader

/-!
# QR framing on the desktop

Messages cut into frames that are shown as QR codes, the strict decoder of a frame, and the
reassembler of one transfer.
-/

namespace AgePluginPhone.Core.Qr

open Library Fragments

abbrev U32 := Fin 4294967296

/-- The decoder methods for a frame. -/
structure QrMinicbor extends Minicbor where
  u32 : List Byte → Option (U32 × List Byte)
  u32_encodeUnsigned : ∀ (n : U32) rest, u32 (encodeUnsigned n ++ rest) = some (n, rest)

/-- The definite-length decoder that accepts heads of any width. -/
def QrMinicbor.definite : QrMinicbor where
  toMinicbor := Minicbor.definite
  u32 input := (Minicbor.definite.u64 input).bind fun read =>
    if h : read.1.val < 4294967296 then some (⟨read.1.val, h⟩, read.2) else none
  u32_encodeUnsigned n rest := by
    have hlarge : n.val < 18446744073709551616 := n.isLt.trans (by decide)
    have hread : Minicbor.definite.u64 (encodeUnsigned n.val ++ rest) = some (⟨n.val, hlarge⟩, rest) :=
      Minicbor.definite.u64_encodeUnsigned ⟨n.val, hlarge⟩ rest
    rw [hread, Option.bind_some, dif_pos n.isLt]

def textPrefix : String := "age-phone:qr1:"

def frameVersion : U16 := 1

def frameType : U16 := 1

def maxEncodedFrameChars : ℕ := 2048

def messageDigestDomain : List Byte := utf8 "age-plugin-phone/qr-message-digest/v1"

def defaultQrChunkBytes : ℕ := 600

def maxQrMessageBytes : ℕ := 65536

def maxQrFragments : ℕ := 128

def maxQrAssemblyAgeMs : ℕ := 30000

inductive QrError
  | messageSize
  | chunkSize
  | tooManyFragments
  | malformedFrame
  | unsupportedVersion
  | unsupportedType
  | differentTransfer
  | conflictingFragment
  | timeout
  | clockRollback
  | digestMismatch
  | poisoned
  deriving DecidableEq

structure Frame where
  transferId : Bytes 16
  digest : ProtocolDigest
  index : U16
  count : U16
  totalLen : ℕ
  chunk : List Byte
  deriving DecidableEq

namespace Frame

/-- The array of a frame whose length fits 32 bits. -/
def bytes (f : Frame) : List Byte :=
  encodeArray 8 ++ (encodeUnsigned frameVersion ++ (encodeUnsigned frameType ++
    (encodeBytes f.transferId ++ (encodeBytes f.digest ++ (encodeUnsigned f.index ++
      (encodeUnsigned f.count ++ (encodeUnsigned f.totalLen ++ encodeBytes f.chunk)))))))

def encodeCbor (f : Frame) : Except QrError (List Byte) := do
  ensure (f.totalLen < 4294967296) .messageSize
  return f.bytes

def encodeText (f : Frame) : Except QrError String := do
  let encoded ← f.encodeCbor
  let text := textPrefix ++ Base64.encodeUrl encoded
  ensure ((utf8 text).length ≤ maxEncodedFrameChars) .chunkSize
  return text

variable (m : QrMinicbor)

abbrev Decode := StateT (List Byte) (Except QrError)

def fixedBytes (n : ℕ) : Decode (Bytes n) := do
  let bytes ← readField .malformedFrame m.bytes
  if h : bytes.length = n then return ⟨bytes, h⟩ else throw .malformedFrame

def fields : Decode Frame := do
  let length ← readField .malformedFrame m.array
  readCheck (length = some 8) .malformedFrame
  let version ← readField .malformedFrame m.u16
  readCheck (version = frameVersion) .unsupportedVersion
  let kind ← readField .malformedFrame m.u16
  readCheck (kind = frameType) .unsupportedType
  let transferId ← fixedBytes m 16
  let digest ← fixedBytes m 32
  let index ← readField .malformedFrame m.u16
  let count ← readField .malformedFrame m.u16
  let totalLen ← readField .malformedFrame m.u32
  let chunk ← readField .malformedFrame m.bytes
  return ⟨transferId, digest, index, count, totalLen, chunk⟩

/-- The bounds a decoded frame is checked against. -/
structure Valid (f : Frame) : Prop where
  count : 0 < f.count.val ∧ f.count.val ≤ maxQrFragments
  index : f.index < f.count
  total : 0 < f.totalLen ∧ f.totalLen ≤ maxQrMessageBytes
  chunk : f.chunk ≠ [] ∧ f.chunk.length ≤ defaultQrChunkBytes ∧ f.chunk.length ≤ f.totalLen

theorem valid_iff (f : Frame) : f.Valid ↔ (0 < f.count.val ∧ f.count.val ≤ maxQrFragments) ∧
    f.index < f.count ∧ (0 < f.totalLen ∧ f.totalLen ≤ maxQrMessageBytes) ∧
      f.chunk ≠ [] ∧ f.chunk.length ≤ defaultQrChunkBytes ∧ f.chunk.length ≤ f.totalLen :=
  ⟨fun h => ⟨h.count, h.index, h.total, h.chunk⟩, fun h => ⟨h.1, h.2.1, h.2.2.1, h.2.2.2⟩⟩

instance (f : Frame) : Decidable f.Valid := decidable_of_iff _ (valid_iff f).symm

def decodeCbor (encoded : List Byte) : Except QrError Frame := do
  let (frame, rest) ← fields m encoded
  ensure (rest = [] ∧ frame.Valid) .malformedFrame
  let canonical ← frame.encodeCbor
  ensure (canonical = encoded) .malformedFrame
  return frame

def decodeText (text : String) : Except QrError Frame := do
  ensure ((utf8 text).length ≤ maxEncodedFrameChars ∧ textPrefix.toList <+: text.toList)
    .malformedFrame
  let payload := String.ofList (text.toList.drop textPrefix.length)
  ensure (payload ≠ "" ∧ '=' ∉ payload.toList) .malformedFrame
  let decoded ← okOr (Base64.decodeUrl payload) .malformedFrame
  ensure (Base64.encodeUrl decoded = payload) .malformedFrame
  decodeCbor m decoded

end Frame

variable (sha256 : List Byte → ProtocolDigest)

def messageDigest (message : List Byte) : ProtocolDigest :=
  sha256 (messageDigestDomain ++ [0] ++ message)

/-- `u16::try_from`. -/
def toU16 (n : ℕ) : Except QrError U16 :=
  if h : n < 65536 then .ok ⟨n, h⟩ else .error .tooManyFragments

/-- `fragment_qr_message`, with the transfer identifier it draws. -/
def fragmentQrMessage (message : List Byte) (chunkBytes : ℕ) (transferId : Bytes 16) :
    Except QrError (List String) := do
  ensure (message ≠ [] ∧ message.length ≤ maxQrMessageBytes) .messageSize
  ensure (1 ≤ chunkBytes ∧ chunkBytes ≤ defaultQrChunkBytes) .chunkSize
  let fragmentCount := pieceCount chunkBytes message.length
  ensure (fragmentCount ≤ maxQrFragments) .tooManyFragments
  let digest := messageDigest sha256 message
  (pieces chunkBytes message).zipIdx.mapM fun chunk => do
    let index ← toU16 chunk.2
    let count ← toU16 fragmentCount
    Frame.encodeText ⟨transferId, digest, index, count, message.length, chunk.1⟩

structure ActiveAssembly where
  transferId : Bytes 16
  digest : ProtocolDigest
  count : U16
  totalLen : ℕ
  startedAtMs : U64
  chunks : List (Option (List Byte))
  received : ℕ
  receivedBytes : ℕ

structure QrReassembler where
  active : Option ActiveAssembly
  poisoned : Bool

inductive QrAssemblyStatus
  | inProgress (received total : ℕ)
  | complete (message : List Byte)

namespace ActiveAssembly

/-- `new`. -/
def start (frame : Frame) (nowMs : U64) : ActiveAssembly where
  transferId := frame.transferId
  digest := frame.digest
  count := frame.count
  totalLen := frame.totalLen
  startedAtMs := nowMs
  chunks := List.replicate frame.count.val none
  received := 0
  receivedBytes := 0

def assemble (a : ActiveAssembly) : Except QrError (List Byte) := do
  let chunks ← okOr (a.chunks.mapM id) .malformedFrame
  let first ← okOr chunks.head? .malformedFrame
  let last ← okOr chunks.getLast? .malformedFrame
  ensure (¬ (first.length = 0 ∨ (∃ chunk ∈ chunks.dropLast, chunk.length ≠ first.length) ∨
    last = [] ∨ first.length < last.length)) .malformedFrame
  let message := chunks.flatten
  ensure (message.length = a.totalLen) .malformedFrame
  ensure (messageDigest sha256 message = a.digest) .digestMismatch
  return message

end ActiveAssembly

namespace QrReassembler

def new : QrReassembler := ⟨none, false⟩

def poison (error : QrError) : Except QrError QrAssemblyStatus × QrReassembler :=
  (.error error, ⟨none, true⟩)

/-- The answer once a fragment is in its slot. -/
def answer (active : ActiveAssembly) : Except QrError QrAssemblyStatus × QrReassembler :=
  if active.received ≠ active.count.val then
    (.ok (.inProgress active.received active.count.val), ⟨some active, false⟩)
  else
    match active.assemble sha256 with
    | .ok message => (.ok (.complete message), ⟨none, false⟩)
    | .error error => (.error error, ⟨none, true⟩)

/-- The part of `push` after the slot of the frame is looked up. -/
def store (active : ActiveAssembly) (frame : Frame) : Except QrError QrAssemblyStatus × QrReassembler :=
  match active.chunks[frame.index.val]? with
  | some (some existing) =>
      if existing ≠ frame.chunk then poison .conflictingFragment else answer sha256 active
  | _ =>
      let receivedBytes := active.receivedBytes + frame.chunk.length
      -- `checked_add` on `usize`
      if 2 ^ 64 ≤ receivedBytes then poison .malformedFrame
      else if active.totalLen < receivedBytes then poison .malformedFrame
      else answer sha256 { active with
        receivedBytes, chunks := active.chunks.set frame.index.val (some frame.chunk),
        received := active.received + 1 }

def push (m : QrMinicbor) (r : QrReassembler) (encoded : String) (nowMs : U64) :
    Except QrError QrAssemblyStatus × QrReassembler :=
  if r.poisoned then (.error .poisoned, r)
  else
    match Frame.decodeText m encoded with
    | .error error => (.error error, r)
    | .ok frame =>
        let active := r.active.getD (.start frame nowMs)
        if nowMs < active.startedAtMs then poison .clockRollback
        else if maxQrAssemblyAgeMs < nowMs.val - active.startedAtMs.val then poison .timeout
        else if frame.transferId ≠ active.transferId ∨ frame.digest ≠ active.digest ∨
            frame.count ≠ active.count ∨ frame.totalLen ≠ active.totalLen then
          (.error .differentTransfer, ⟨some active, false⟩)
        else store sha256 active frame

def reset (_ : QrReassembler) : QrReassembler := new

inductive Call
  | push (encoded : String) (nowMs : U64)
  | reset

/-- What a call returns; `reset` returns nothing. -/
def respond (m : QrMinicbor) (r : QrReassembler) :
    Call → Option (Except QrError QrAssemblyStatus) × QrReassembler
  | .push encoded nowMs =>
      let outcome := r.push sha256 m encoded nowMs
      (some outcome.1, outcome.2)
  | .reset => (none, r.reset)

end QrReassembler

end AgePluginPhone.Core.Qr
