import AgePluginPhone.Core.QrTransfers

/-!
# QR reassembly on the phones

The two phones reassemble in the same steps. They differ in their errors, their integers and the
decoder of a frame, which are parameters here.
-/

namespace AgePluginPhone.Phone.Qr

open Library Fragments Reassembly AgePluginPhone.Core AgePluginPhone.Core.Qr

structure Frame where
  transferId : Bytes 16
  digest : ProtocolDigest
  index : ℕ
  count : ℕ
  totalLength : ℕ
  chunk : List Byte
  deriving DecidableEq

/-- The errors of a phone, and the first byte count its integers do not hold. -/
structure Errors (Error : Type) where
  poisoned : Error
  clockRollback : Error
  timeout : Error
  differentTransfer : Error
  conflictingFragment : Error
  malformedFrame : Error
  digestMismatch : Error
  overflow : Error
  limit : ℕ

structure Active where
  transferId : Bytes 16
  digest : ProtocolDigest
  count : ℕ
  totalLength : ℕ
  startedAt : ℤ
  chunks : List (Option (List Byte))
  received : ℕ
  receivedBytes : ℕ

structure Reassembler where
  active : Option Active
  poisoned : Bool

variable {Error : Type} (errors : Errors Error) (sha256 : List Byte → ProtocolDigest)

namespace Active

def start (frame : Frame) (now : ℤ) : Active where
  transferId := frame.transferId
  digest := frame.digest
  count := frame.count
  totalLength := frame.totalLength
  startedAt := now
  chunks := List.replicate frame.count none
  received := 0
  receivedBytes := 0

def assemble (a : Active) : Except Error (List Byte) := do
  let first ← okOr (a.chunks.head?.bind id) errors.malformedFrame
  ensure (¬ (first = [] ∨
    (∃ chunk ∈ a.chunks.dropLast, chunk.map List.length ≠ some first.length))) errors.malformedFrame
  let last ← okOr (a.chunks.getLast?.bind id) errors.malformedFrame
  ensure (last ≠ [] ∧ last.length ≤ first.length) errors.malformedFrame
  let message := (a.chunks.filterMap id).flatten
  ensure (message.length = a.totalLength) errors.malformedFrame
  ensure (messageDigest sha256 message = a.digest) errors.digestMismatch
  return message

end Active

namespace Reassembler

def new : Reassembler := ⟨none, false⟩

def poison (error : Error) : Except Error QrAssemblyStatus × Reassembler :=
  (.error error, ⟨none, true⟩)

def answer (current : Active) : Except Error QrAssemblyStatus × Reassembler :=
  if current.received ≠ current.count then
    (.ok (.inProgress current.received current.count), ⟨some current, false⟩)
  else
    match current.assemble errors sha256 with
    | .ok message => (.ok (.complete message), new)
    | .error error => poison error

def store (current : Active) (frame : Frame) : Except Error QrAssemblyStatus × Reassembler :=
  match current.chunks[frame.index]? with
  | some (some existing) =>
      if existing ≠ frame.chunk then poison errors.conflictingFragment
      else answer errors sha256 current
  | _ =>
      let receivedBytes := current.receivedBytes + frame.chunk.length
      if errors.limit ≤ receivedBytes then poison errors.overflow
      else if current.totalLength < receivedBytes then poison errors.malformedFrame
      else answer errors sha256 { current with
        receivedBytes, chunks := current.chunks.set frame.index (some frame.chunk),
        received := current.received + 1 }

def push (decode : String → Except Error Frame) (r : Reassembler) (encoded : String) (now : ℤ) :
    Except Error QrAssemblyStatus × Reassembler :=
  if r.poisoned then (.error errors.poisoned, r)
  else if now < 0 then (.error errors.clockRollback, r)
  else
    match decode encoded with
    | .error error => (.error error, r)
    | .ok frame =>
        let current := r.active.getD (.start frame now)
        if now < current.startedAt then poison errors.clockRollback
        else if maxQrAssemblyAgeMs < now - current.startedAt then poison errors.timeout
        else if frame.transferId ≠ current.transferId ∨ frame.digest ≠ current.digest ∨
            frame.count ≠ current.count ∨ frame.totalLength ≠ current.totalLength then
          (.error errors.differentTransfer, ⟨some current, false⟩)
        else store errors sha256 current frame

def reset (_ : Reassembler) : Reassembler := new

end Reassembler

def Frame.piece (f : Frame) : Piece Transfer Byte :=
  ⟨⟨f.transferId, f.digest, f.count, f.totalLength⟩, f.index, f.chunk⟩

/-- A frame of the desktop as a phone holds it. -/
def ofCore (f : Core.Qr.Frame) : Frame :=
  ⟨f.transferId, f.digest, f.index.val, f.count.val, f.totalLen, f.chunk⟩

/-- The array a frame is written as. -/
def Frame.item (f : Frame) : Cbor.Item :=
  .array [.unsigned 1, .unsigned 1, .bytes f.transferId, .bytes f.digest, .unsigned f.index,
    .unsigned f.count, .unsigned f.totalLength, .bytes f.chunk]

theorem ofCore_item (f : Core.Qr.Frame) : (ofCore f).item.encode = f.bytes := by
  simp [Frame.item, ofCore, Cbor.Item.encode, Cbor.Item.encodeAll, Core.Qr.Frame.bytes, encodeArray,
    encodeUnsigned, encodeBytes, frameVersion, frameType]

/-- The bounds a frame is checked against. -/
structure Frame.Bounded (f : Frame) : Prop where
  count : 1 ≤ f.count ∧ f.count ≤ maxQrFragments
  index : f.index < f.count
  total : 1 ≤ f.totalLength ∧ f.totalLength ≤ maxQrMessageBytes
  chunk : f.chunk ≠ [] ∧ f.chunk.length ≤ defaultQrChunkBytes ∧ f.chunk.length ≤ f.totalLength

theorem Frame.bounded_iff (f : Frame) : f.Bounded ↔ (1 ≤ f.count ∧ f.count ≤ maxQrFragments) ∧
    f.index < f.count ∧ (1 ≤ f.totalLength ∧ f.totalLength ≤ maxQrMessageBytes) ∧
      f.chunk ≠ [] ∧ f.chunk.length ≤ defaultQrChunkBytes ∧ f.chunk.length ≤ f.totalLength :=
  ⟨fun h => ⟨h.count, h.index, h.total, h.chunk⟩, fun h => ⟨h.1, h.2.1, h.2.2.1, h.2.2.2⟩⟩

instance (f : Frame) : Decidable f.Bounded := decidable_of_iff _ f.bounded_iff.symm

theorem ofCore_bounded {f : Core.Qr.Frame} (h : f.Valid) : (ofCore f).Bounded :=
  ⟨h.count, h.index, h.total, h.chunk⟩

/-- The desktop holds every frame within the bounds. -/
theorem Frame.Bounded.exists_core {f : Frame} (h : f.Bounded) : ∃ g : Core.Qr.Frame,
    g.Valid ∧ ofCore g = f := by
  obtain ⟨transferId, digest, index, count, totalLength, chunk⟩ := f
  have hcount : count < 65536 := lt_of_le_of_lt h.count.2 (by decide)
  have hindex : index < 65536 := lt_trans h.index hcount
  exact ⟨⟨transferId, digest, ⟨index, hindex⟩, ⟨count, hcount⟩, totalLength, chunk⟩,
    ⟨h.count, h.index, h.total, h.chunk⟩, rfl⟩

/-- A call comes to the same on both sides, but for the category of the error thrown. -/
inductive Same (Thrown : Error → Prop) : Except Error QrAssemblyStatus → Answer Byte → Prop
  | progress (received total : ℕ) :
      Same Thrown (.ok (.inProgress received total)) (.progress received total)
  | complete (message : List Byte) : Same Thrown (.ok (.complete message)) (.complete message)
  | refused (error : Error) (h : Thrown error) (why : Refusal) :
      Same Thrown (.error error) (.refused why)

namespace Active

def assembly (a : Active) : Assembly Transfer Byte where
  header := ⟨a.transferId, a.digest, a.count, a.totalLength⟩
  started := a.startedAt.toNat
  slots := a.chunks

/-- The counters agree with the slots. -/
structure Consistent (a : Active) : Prop where
  started : 0 ≤ a.startedAt
  length : a.chunks.length = a.count
  received : a.received = a.assembly.received
  receivedBytes : a.receivedBytes = weight a.chunks
  fits : weight a.chunks ≤ a.totalLength
  total : a.totalLength ≤ maxQrMessageBytes

theorem start_consistent {frame : Core.Qr.Frame} {now : ℤ} (hnow : 0 ≤ now) (h : frame.Valid) :
    (start (ofCore frame) now).Consistent := by
  refine ⟨hnow, List.length_replicate, ?_, ?_, ?_, h.total.2⟩
  · simp [start, assembly, Assembly.received, List.countP_replicate]
  · exact (weight_replicate _).symm
  · simp [start, weight_replicate]

variable {errors sha256}

theorem assemble_eq_ok {a : Active} {chunks : List (List Byte)} (h : a.chunks = chunks.map some)
    {message : List Byte} : a.assemble errors sha256 = .ok message ↔
      EvenSizes chunks ∧ message = chunks.flatten ∧ message.length = a.totalLength ∧
        messageDigest sha256 message = a.digest := by
  have hflatten : ((chunks.map some).filterMap id).flatten = chunks.flatten := by
    rw [List.filterMap_map]
    simp
  simp only [assemble, bind_eq_ok, okOr_eq_ok, ensure_eq_ok, exists_const, pure_eq_ok,
    Except.ok.injEq, h, hflatten]
  cases chunks with
  | nil => simp [EvenSizes]
  | cons first rest =>
      have hlast : (first :: rest).getLast?.getD [] =
          (first :: rest).getLast (List.cons_ne_nil _ _) := by
        rw [List.getLast?_eq_some_getLast (List.cons_ne_nil _ _)]
        rfl
      have hdrop : ((first :: rest).map some).dropLast = (first :: rest).dropLast.map some :=
        (List.map_dropLast ..).symm
      have hfirst : (((first :: rest).map some).head?.bind fun chunk => id chunk) = some first := rfl
      have hfinal : (((first :: rest).map some).getLast?.bind fun chunk => id chunk) =
          some ((first :: rest).getLast (List.cons_ne_nil _ _)) := by
        rw [List.getLast?_map, List.getLast?_eq_some_getLast (List.cons_ne_nil _ _)]
        rfl
      simp only [EvenSizes, hlast, hdrop, hfirst, hfinal, Option.some.injEq, List.head?_cons,
        Option.getD_some, exists_eq_left', not_or, not_exists, not_and, not_not, ne_eq,
        List.forall_mem_map, Option.map_some, List.length_pos_iff]
      constructor
      · intro hparts
        obtain ⟨⟨hnonempty, hsizes⟩, hend, htotal, hdigest, rfl⟩ := hparts
        exact ⟨⟨hnonempty, hsizes, hend.1, hend.2⟩, rfl, htotal, hdigest⟩
      · intro hparts
        obtain ⟨⟨hnonempty, hsizes, hend⟩, rfl, htotal, hdigest⟩ := hparts
        exact ⟨⟨hnonempty, hsizes⟩, hend, htotal, hdigest, rfl⟩

/-- A full assembly is put together on a phone as the receiver does it. -/
theorem assemble_same (a : Active) {chunks : List (List Byte)} (h : a.chunks = chunks.map some)
    {message : List Byte} : a.assemble errors sha256 = .ok message ↔
      a.assembly.message (format sha256) = .ok message := by
  rw [assemble_eq_ok h, Assembly.message_eq_ok]
  constructor
  · intro hparts
    exact ⟨chunks, h, hparts.1, hparts.2.1, hparts.2.2.1, decide_eq_true hparts.2.2.2⟩
  · intro hparts
    obtain ⟨found, hfound, heven, hflatten, htotal, hvalid⟩ := hparts
    obtain rfl : found = chunks :=
      List.map_injective_iff.mpr (Option.some_injective _) (hfound.symm.trans h)
    exact ⟨heven, hflatten, htotal, of_decide_eq_true hvalid⟩

end Active

/-- The phone reads a string as the desktop does, but for the category of the error thrown. -/
def Decodes (Thrown : Error → Prop) (m : QrMinicbor) (decode : String → Except Error Frame)
    (encoded : String) : Prop :=
  match Core.Qr.Frame.decodeText m encoded with
  | .ok f => decode encoded = .ok (ofCore f)
  | .error _ => ∃ error, decode encoded = .error error ∧ Thrown error

/-- The errors of a phone are thrown, and the byte counts of a transfer fit its integers. -/
structure Errors.Ordinary (errors : Errors Error) (Thrown : Error → Prop) : Prop where
  poisoned : Thrown errors.poisoned
  clockRollback : Thrown errors.clockRollback
  timeout : Thrown errors.timeout
  differentTransfer : Thrown errors.differentTransfer
  conflictingFragment : Thrown errors.conflictingFragment
  malformedFrame : Thrown errors.malformedFrame
  digestMismatch : Thrown errors.digestMismatch
  roomy : maxQrMessageBytes + defaultQrChunkBytes < errors.limit

variable {Thrown : Error → Prop} {errors sha256}

theorem Active.assemble_thrown (hordinary : errors.Ordinary Thrown) {a : Active} {error : Error}
    (h : a.assemble errors sha256 = .error error) : Thrown error := by
  have herror : error = errors.malformedFrame ∨ error = errors.digestMismatch := by
    simp only [assemble, okOr, ensure] at h
    cases hfirst : a.chunks.head?.bind id with
    | none =>
        simp only [hfirst, error_bind, Except.error.injEq] at h
        exact Or.inl h.symm
    | some first =>
        cases hlast : a.chunks.getLast?.bind id with
        | none =>
            simp only [hfirst, hlast, ok_bind, error_bind] at h
            split_ifs at h <;> exact Or.inl (Except.error.inj h).symm
        | some last =>
            simp only [hfirst, hlast, ok_bind] at h
            split_ifs at h
            all_goals first
              | exact Or.inl (Except.error.inj h).symm
              | exact Or.inr (Except.error.inj h).symm
              | cases h
  rcases herror with rfl | rfl
  · exact hordinary.malformedFrame
  · exact hordinary.digestMismatch

/-- A decoder that accepts exactly the texts of frames reads them as the desktop does. -/
theorem decodes_of_text {m : QrMinicbor} {decode : String → Except Error Frame} {encoded : String}
    (hthrown : ∀ error, decode encoded = .error error → Thrown error)
    (hread : ∀ f : Core.Qr.Frame, f.Valid → encoded = f.text → decode encoded = .ok (ofCore f))
    (hsound : ∀ frame, decode encoded = .ok frame →
      ∃ f : Core.Qr.Frame, f.Valid ∧ encoded = f.text) : Decodes Thrown m decode encoded := by
  rw [Decodes]
  cases hdesktop : Core.Qr.Frame.decodeText m encoded with
  | ok f =>
      obtain ⟨hvalid, htext⟩ := Core.Qr.Frame.decodeText_eq_ok.mp hdesktop
      exact hread f hvalid htext
  | error error =>
      cases hphone : decode encoded with
      | error failure => exact ⟨failure, rfl, hthrown failure hphone⟩
      | ok frame =>
          obtain ⟨f, hvalid, htext⟩ := hsound frame hphone
          rw [Core.Qr.Frame.decodeText_eq_ok.mpr ⟨hvalid, htext⟩] at hdesktop
          cases hdesktop

/-- A phone's reassembler and the receiver it stands for. -/
inductive Related : Reassembler → Receiver Transfer Byte → Prop
  | idle : Related .new .idle
  | collecting (a : Active) (h : a.Consistent) : Related ⟨some a, false⟩ (.collecting a.assembly)
  | poisoned : Related ⟨none, true⟩ .poisoned

theorem Related.poisoned_eq {r : Reassembler} {receiver : Receiver Transfer Byte}
    (h : Related r receiver) : r.poisoned = receiver.isPoisoned := by
  cases h <;> rfl

/-- The outcomes of a call on either side. -/
structure Agree (Thrown : Error → Prop) (outcome : Except Error QrAssemblyStatus × Reassembler)
    (expected : Answer Byte × Receiver Transfer Byte) : Prop where
  same : Same Thrown outcome.1 expected.1
  related : Related outcome.2 expected.2

namespace Reassembler

variable {a : Active} {frame : Core.Qr.Frame} {now : ℤ}

theorem poison_agrees {error : Error} (h : Thrown error) (why : Refusal) :
    Agree Thrown (poison error) (.refused why, .poisoned) :=
  ⟨.refused error h why, .poisoned⟩

theorem answer_agrees (hordinary : errors.Ordinary Thrown) (h : a.Consistent) :
    Agree Thrown (answer errors sha256 a) (Receiver.finish (format sha256) a.assembly) := by
  have hcount : (format sha256).count a.assembly.header = a.count := rfl
  rw [answer, Receiver.finish, ← h.received, hcount]
  by_cases hmissing : a.received = a.count
  · rw [if_neg (not_not.mpr hmissing), if_neg (not_not.mpr hmissing)]
    have hfull : a.chunks.countP Option.isSome = a.chunks.length := by
      rw [h.length, ← hmissing, h.received]
      rfl
    obtain ⟨chunks, hchunks⟩ := countP_isSome_eq_length.mp hfull
    cases hmessage : a.assembly.message (format sha256) with
    | ok message =>
        rw [(Active.assemble_same a hchunks).mpr hmessage]
        exact ⟨.complete message, .idle⟩
    | error why =>
        cases hassemble : a.assemble errors sha256 with
        | ok message =>
            rw [(Active.assemble_same a hchunks).mp hassemble] at hmessage
            cases hmessage
        | error error =>
            exact poison_agrees (Active.assemble_thrown hordinary hassemble) why
  · rw [if_pos hmissing, if_pos hmissing]
    exact ⟨.progress _ _, .collecting a h⟩

/-- A chunk that is stored keeps the counters right. -/
theorem set_consistent (h : a.Consistent) {i : ℕ} {chunk : List Byte}
    (hslot : a.chunks[i]? = some none) (hfits : a.receivedBytes + chunk.length ≤ a.totalLength) :
    Active.Consistent { a with
      receivedBytes := a.receivedBytes + chunk.length
      chunks := a.chunks.set i (some chunk)
      received := a.received + 1 } := by
  have hweight : weight (a.chunks.set i (some chunk)) = weight a.chunks + chunk.length :=
    weight_set hslot
  have hreceived : a.received = a.chunks.countP Option.isSome := h.received
  refine ⟨h.started, by rw [List.length_set, h.length], ?_, ?_, ?_, h.total⟩
  · simp only [Active.assembly, Assembly.received, countP_set hslot, hreceived]
  · rw [hweight, h.receivedBytes]
  · rw [hweight, ← h.receivedBytes]
    exact hfits

theorem store_agrees (hordinary : errors.Ordinary Thrown) (h : a.Consistent) (hvalid : frame.Valid)
    (htransfer : frame.transfer = a.assembly.header) :
    Agree Thrown (store errors sha256 a (ofCore frame))
      (Receiver.place (format sha256) a.assembly frame.piece) := by
  have hcount : frame.count.val = a.count := congrArg Transfer.count htransfer
  have hindex : frame.index.val < a.chunks.length := by
    rw [h.length, ← hcount]
    exact hvalid.index
  obtain ⟨slot, hslot⟩ : ∃ slot, a.chunks[frame.index.val]? = some slot :=
    ⟨_, List.getElem?_eq_getElem hindex⟩
  have hslots : a.assembly.slots[frame.piece.index]? = some slot := hslot
  have hphone : a.chunks[(ofCore frame).index]? = some slot := hslot
  rw [Receiver.place]
  cases slot with
  | some existing =>
      have hinsert : a.assembly.insert (format sha256) frame.piece =
          if existing = frame.chunk then .ok a.assembly else .error .conflict := by
        rw [Assembly.insert, hslots]
        rfl
      have hstore : store errors sha256 a (ofCore frame) = if existing ≠ frame.chunk then
          poison errors.conflictingFragment else answer errors sha256 a := by
        rw [store, hphone]
        rfl
      rw [hinsert, hstore]
      by_cases hsame : existing = frame.chunk
      · rw [if_neg (not_not.mpr hsame), if_pos hsame]
        exact answer_agrees hordinary h
      · rw [if_pos hsame, if_neg hsame]
        exact poison_agrees hordinary.conflictingFragment .conflict
  | none =>
      have hinsert : a.assembly.insert (format sha256) frame.piece =
          if a.totalLength < weight (a.chunks.set frame.index.val (some frame.chunk)) then
            .error .overflow
          else .ok { a.assembly with slots := a.chunks.set frame.index.val (some frame.chunk) } := by
        rw [Assembly.insert, hslots]
        rfl
      have hstore : store errors sha256 a (ofCore frame) =
          if errors.limit ≤ a.receivedBytes + frame.chunk.length then poison errors.overflow
          else if a.totalLength < a.receivedBytes + frame.chunk.length then
            poison errors.malformedFrame
          else answer errors sha256 { a with
            receivedBytes := a.receivedBytes + frame.chunk.length
            chunks := a.chunks.set frame.index.val (some frame.chunk)
            received := a.received + 1 } := by
        rw [store, hphone]
        rfl
      have hfits := h.fits
      have htotal := h.total
      have hchunk := hvalid.chunk.2.1
      have hbytes := h.receivedBytes
      have hsmall : ¬ errors.limit ≤ a.receivedBytes + frame.chunk.length := by
        have hroomy := hordinary.roomy
        omega
      rw [hinsert, hstore, if_neg hsmall, weight_set hslot, ← hbytes]
      by_cases hover : a.totalLength < a.receivedBytes + frame.chunk.length
      · rw [if_pos hover, if_pos hover]
        exact poison_agrees hordinary.malformedFrame .overflow
      · rw [if_neg hover, if_neg hover]
        exact answer_agrees hordinary (set_consistent h hslot (not_lt.mp hover))

/-- The part of `push` after the frame is read. -/
theorem accept_agrees (hordinary : errors.Ordinary Thrown) (h : a.Consistent) (hvalid : frame.Valid)
    (hnow : 0 ≤ now) :
    Agree Thrown
      (if now < a.startedAt then poison errors.clockRollback
        else if maxQrAssemblyAgeMs < now - a.startedAt then poison errors.timeout
        else if (ofCore frame).transferId ≠ a.transferId ∨ (ofCore frame).digest ≠ a.digest ∨
            (ofCore frame).count ≠ a.count ∨ (ofCore frame).totalLength ≠ a.totalLength then
          (.error errors.differentTransfer, ⟨some a, false⟩)
        else store errors sha256 a (ofCore frame))
      (Receiver.accept (format sha256) a.assembly frame.piece now.toNat) := by
  have hstarted := h.started
  have hsooner : a.assembly.started = a.startedAt.toNat := rfl
  rw [Receiver.accept, hsooner]
  by_cases hback : now < a.startedAt
  · rw [if_pos hback, if_pos (show now.toNat < a.startedAt.toNat by omega)]
    exact poison_agrees hordinary.clockRollback .rollback
  rw [if_neg hback, if_neg (show ¬ now.toNat < a.startedAt.toNat by omega)]
  by_cases hlate : (maxQrAssemblyAgeMs : ℤ) < now - a.startedAt
  · have hexpired : (format sha256).window < now.toNat - a.startedAt.toNat := by
      simp only [format, maxQrAssemblyAgeMs] at hlate ⊢
      omega
    rw [if_pos hlate, if_pos hexpired]
    exact poison_agrees hordinary.timeout .timeout
  have hwindow : ¬ (format sha256).window < now.toNat - a.startedAt.toNat := by
    simp only [format, maxQrAssemblyAgeMs] at hlate ⊢
    omega
  rw [if_neg hlate, if_neg hwindow]
  have hforeign : ((ofCore frame).transferId ≠ a.transferId ∨ (ofCore frame).digest ≠ a.digest ∨
      (ofCore frame).count ≠ a.count ∨ (ofCore frame).totalLength ≠ a.totalLength) ↔
        frame.piece.header ≠ a.assembly.header := by
    simp only [ofCore, Core.Qr.Frame.piece, Frame.transfer, Active.assembly, ne_eq,
      Transfer.mk.injEq]
    tauto
  by_cases hheader : frame.piece.header = a.assembly.header
  · rw [if_neg (hforeign.not.mpr (not_not.mpr hheader)), if_neg (not_not.mpr hheader)]
    exact store_agrees hordinary h hvalid hheader
  · rw [if_pos (hforeign.mpr hheader), if_pos hheader]
    exact ⟨.refused _ hordinary.differentTransfer .foreign, .collecting a h⟩

/-- One push on a phone and on the receiver it stands for. -/
theorem push_agrees (sha256 : List Byte → ProtocolDigest) (hordinary : errors.Ordinary Thrown) {m : QrMinicbor} {decode : String → Except Error Frame}
    {r : Reassembler} {receiver : Receiver Transfer Byte} (h : Related r receiver)
    {encoded : String} (hnow : 0 ≤ now) (hdecodes : Decodes Thrown m decode encoded) :
    Agree Thrown (push errors sha256 decode r encoded now)
      (receiver.push (format sha256) (readPiece m) encoded now.toNat) := by
  rw [Decodes] at hdecodes
  have hreading : ¬ now < 0 := not_lt.mpr hnow
  cases hframe : Core.Qr.Frame.decodeText m encoded with
  | error e =>
      have hpiece : readPiece m encoded = none := by rw [readPiece, hframe]; rfl
      simp only [hframe] at hdecodes
      obtain ⟨error, herror, hthrown⟩ := hdecodes
      cases h with
      | poisoned => exact ⟨.refused _ hordinary.poisoned .poisoned, .poisoned⟩
      | idle =>
          simp only [push, new, if_neg hreading, herror, Receiver.push, hpiece]
          exact ⟨.refused error hthrown .undecodable, .idle⟩
      | collecting a ha =>
          simp only [push, if_neg hreading, herror, Receiver.push, hpiece]
          exact ⟨.refused error hthrown .undecodable, .collecting a ha⟩
  | ok frame =>
      have hpiece : readPiece m encoded = some frame.piece := by rw [readPiece, hframe]; rfl
      have hvalid : frame.Valid := (Core.Qr.Frame.decodeText_eq_ok.mp hframe).1
      simp only [hframe] at hdecodes
      cases h with
      | poisoned => exact ⟨.refused _ hordinary.poisoned .poisoned, .poisoned⟩
      | idle =>
          simp only [push, new, if_neg hreading, hdecodes, Receiver.push, hpiece]
          exact accept_agrees hordinary (Active.start_consistent hnow hvalid) hvalid hnow
      | collecting a ha =>
          simp only [push, if_neg hreading, hdecodes, Receiver.push, hpiece]
          exact accept_agrees hordinary ha hvalid hnow

end Reassembler

end AgePluginPhone.Phone.Qr
