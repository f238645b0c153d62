import AgePluginPhone.Core.QrCodec
import AgePluginPhone.Library.Reassembly

/-!
# QR reassembly on the desktop

The desktop's reassembler is the general receiver with counters: it answers every call alike.
-/

namespace AgePluginPhone.Core.Qr

open Library Fragments Reassembly

/-- What all frames of one transfer share. -/
structure Transfer where
  transferId : Bytes 16
  digest : ProtocolDigest
  count : ℕ
  totalLen : ℕ
  deriving DecidableEq

def Frame.transfer (f : Frame) : Transfer := ⟨f.transferId, f.digest, f.count.val, f.totalLen⟩

def Frame.piece (f : Frame) : Piece Transfer Byte := ⟨f.transfer, f.index.val, f.chunk⟩

variable (sha256 : List Byte → ProtocolDigest) (m : QrMinicbor)

def format : Format Transfer Byte where
  count := Transfer.count
  total := Transfer.totalLen
  valid transfer message := messageDigest sha256 message = transfer.digest
  window := maxQrAssemblyAgeMs

def readPiece (text : String) : Option (Piece Transfer Byte) :=
  (Frame.decodeText m text).toOption.map Frame.piece

/-- The error a refusal is reported as; an unreadable frame has errors of its own. -/
def errorOf : Refusal → QrError
  | .undecodable => .malformedFrame
  | .poisoned => .poisoned
  | .rollback => .clockRollback
  | .timeout => .timeout
  | .foreign => .differentTransfer
  | .conflict => .conflictingFragment
  | .overflow => .malformedFrame
  | .uneven => .malformedFrame
  | .mismatch => .digestMismatch

inductive Same : Option (Except QrError QrAssemblyStatus) → Answer Byte → Prop
  | progress (received total : ℕ) :
      Same (some (.ok (.inProgress received total))) (.progress received total)
  | complete (message : List Byte) : Same (some (.ok (.complete message))) (.complete message)
  | refused (why : Refusal) (h : why ≠ .undecodable) :
      Same (some (.error (errorOf why))) (.refused why)
  | undecodable (error : QrError) : Same (some (.error error)) (.refused .undecodable)
  | none : Same none .none

namespace ActiveAssembly

def assembly (a : ActiveAssembly) : Assembly Transfer Byte where
  header := ⟨a.transferId, a.digest, a.count.val, a.totalLen⟩
  started := a.startedAtMs.val
  slots := a.chunks

/-- The counters agree with the slots. -/
structure Consistent (a : ActiveAssembly) : Prop where
  length : a.chunks.length = a.count.val
  received : a.received = a.assembly.received
  receivedBytes : a.receivedBytes = weight a.chunks
  fits : weight a.chunks ≤ a.totalLen
  total : a.totalLen ≤ maxQrMessageBytes

variable {sha256} {a : ActiveAssembly} {frame : Frame} {nowMs : U64}

theorem start_consistent (h : frame.Valid) : (start frame nowMs).Consistent := by
  refine ⟨List.length_replicate, ?_, ?_, ?_, h.total.2⟩
  · simp [start, assembly, Assembly.received, List.countP_replicate]
  · exact (weight_replicate _).symm
  · simp [start, weight_replicate]

private theorem evenSizes_iff {first : List Byte} {rest : List (List Byte)} :
    EvenSizes (first :: rest) ↔ ¬ (first.length = 0 ∨
      (∃ chunk ∈ (first :: rest).dropLast, chunk.length ≠ first.length) ∨
      (first :: rest).getLast (List.cons_ne_nil _ _) = [] ∨
      first.length < ((first :: rest).getLast (List.cons_ne_nil _ _)).length) := by
  have hlast : (first :: rest).getLast?.getD [] = (first :: rest).getLast (List.cons_ne_nil _ _) := by
    rw [List.getLast?_eq_some_getLast (List.cons_ne_nil _ _)]
    rfl
  simp only [EvenSizes, hlast, List.head?_cons, Option.getD_some, not_or, not_exists, not_and,
    not_not, not_lt, Nat.pos_iff_ne_zero, ne_eq, List.length_eq_zero_iff]

theorem assemble_eq (a : ActiveAssembly) : a.assemble sha256 =
    (a.assembly.message (format sha256)).mapError errorOf := by
  rw [assemble, Assembly.message]
  change (do let chunks ← okOr (a.chunks.mapM id) QrError.malformedFrame; _) =
    Except.mapError errorOf (do let chunks ← okOr (a.chunks.mapM id) Refusal.uneven; _)
  cases a.chunks.mapM id with
  | none => rfl
  | some chunks =>
      cases chunks with
      | nil => rfl
      | cons first rest =>
          simp only [okOr_some, ok_bind, List.head?_cons,
            List.getLast?_eq_some_getLast (List.cons_ne_nil first rest)]
          by_cases heven : EvenSizes (first :: rest)
          · rw [ensure_true _ heven, ensure_true _ (evenSizes_iff.mp heven), ok_bind, ok_bind]
            by_cases htotal : (first :: rest).flatten.length = a.totalLen
            · rw [ensure_true _ htotal, ensure_true Refusal.uneven
                (show (first :: rest).flatten.length = (format sha256).total a.assembly.header from
                  htotal), ok_bind, ok_bind]
              by_cases hdigest : messageDigest sha256 (first :: rest).flatten = a.digest
              · have hvalid : (format sha256).valid a.assembly.header (first :: rest).flatten = true :=
                  decide_eq_true hdigest
                rw [ensure_true _ hdigest, ensure_true Refusal.mismatch hvalid]
                rfl
              · have hinvalid :
                    ¬ (format sha256).valid a.assembly.header (first :: rest).flatten = true :=
                  fun h => hdigest (of_decide_eq_true h)
                rw [ensure_false _ hdigest, ensure_false Refusal.mismatch hinvalid]
                rfl
            · rw [ensure_false _ htotal, ensure_false Refusal.uneven
                (show ¬ (first :: rest).flatten.length = (format sha256).total a.assembly.header from
                  htotal)]
              rfl
          · rw [ensure_false _ heven, ensure_false _ (fun h => heven (evenSizes_iff.mpr h))]
            rfl

end ActiveAssembly

/-- The desktop's reassembler and the receiver it stands for. -/
inductive Related : QrReassembler → Receiver Transfer Byte → Prop
  | idle : Related .new .idle
  | collecting (a : ActiveAssembly) (h : a.Consistent) :
      Related ⟨some a, false⟩ (.collecting a.assembly)
  | poisoned : Related ⟨none, true⟩ .poisoned

theorem Related.poisoned_eq {r : QrReassembler} {receiver : Receiver Transfer Byte}
    (h : Related r receiver) : r.poisoned = receiver.isPoisoned := by
  cases h <;> rfl

/-- The outcomes of a call on either side. -/
structure Agree (outcome : Option (Except QrError QrAssemblyStatus) × QrReassembler)
    (expected : Answer Byte × Receiver Transfer Byte) : Prop where
  same : Same outcome.1 expected.1
  related : Related outcome.2 expected.2

namespace QrReassembler

variable {sha256 m} {a : ActiveAssembly} {frame : Frame} {nowMs : U64}

theorem poison_agrees (why : Refusal) (h : why ≠ .undecodable) :
    Agree (some (poison (errorOf why)).1, (poison (errorOf why)).2)
      (.refused why, .poisoned) :=
  ⟨.refused why h, .poisoned⟩

theorem answer_agrees (h : a.Consistent) : Agree (some (answer sha256 a).1, (answer sha256 a).2)
    (Receiver.finish (format sha256) a.assembly) := by
  have hcount : (format sha256).count a.assembly.header = a.count.val := rfl
  rw [answer, Receiver.finish, ← h.received, hcount]
  by_cases hmissing : a.received = a.count.val
  · rw [if_neg (not_not.mpr hmissing), if_neg (not_not.mpr hmissing), a.assemble_eq]
    cases hmessage : a.assembly.message (format sha256) with
    | ok message => exact ⟨.complete message, .idle⟩
    | error why =>
        have hwhy : why ≠ .undecodable := by
          rcases Assembly.message_refused hmessage with rfl | rfl <;> decide
        exact ⟨.refused why hwhy, .poisoned⟩
  · rw [if_pos hmissing, if_pos hmissing]
    exact ⟨.progress _ _, .collecting a h⟩

/-- A chunk that is stored keeps the counters right. -/
theorem set_consistent (h : a.Consistent) (hslot : a.chunks[frame.index.val]? = some none)
    (hfits : a.receivedBytes + frame.chunk.length ≤ a.totalLen) :
    ActiveAssembly.Consistent { a with
      receivedBytes := a.receivedBytes + frame.chunk.length
      chunks := a.chunks.set frame.index.val (some frame.chunk)
      received := a.received + 1 } := by
  have hweight : weight (a.chunks.set frame.index.val (some frame.chunk)) =
      weight a.chunks + frame.chunk.length := weight_set hslot
  have hreceived : a.received = a.chunks.countP Option.isSome := h.received
  refine ⟨by rw [List.length_set, h.length], ?_, ?_, ?_, h.total⟩
  · simp only [ActiveAssembly.assembly, Assembly.received, countP_set hslot, hreceived]
  · rw [hweight, h.receivedBytes]
  · rw [hweight, ← h.receivedBytes]
    exact hfits

theorem store_agrees (h : a.Consistent) (hvalid : frame.Valid)
    (htransfer : frame.transfer = a.assembly.header) :
    Agree (some (store sha256 a frame).1, (store sha256 a frame).2)
      (Receiver.place (format sha256) a.assembly frame.piece) := by
  rw [Receiver.place]
  have hcount : frame.count = a.count := by
    simpa [Frame.transfer, ActiveAssembly.assembly, Fin.val_inj] using
      congrArg Transfer.count htransfer
  have hindex : frame.index.val < a.chunks.length := by
    rw [h.length, ← hcount]
    exact hvalid.index
  obtain ⟨slot, hslot⟩ : ∃ slot, a.chunks[frame.index.val]? = some slot :=
    ⟨_, List.getElem?_eq_getElem hindex⟩
  have hslots : a.assembly.slots[frame.piece.index]? = some slot := hslot
  cases slot with
  | some existing =>
      have hinsert : a.assembly.insert (format sha256) frame.piece =
          if existing = frame.chunk then .ok a.assembly else .error .conflict := by
        rw [Assembly.insert, hslots]
        rfl
      have hstore : store sha256 a frame = if existing ≠ frame.chunk then
          poison .conflictingFragment else answer sha256 a := by
        rw [store, hslot]
      rw [hinsert, hstore]
      by_cases hsame : existing = frame.chunk
      · rw [if_neg (not_not.mpr hsame), if_pos hsame]
        exact answer_agrees h
      · rw [if_pos hsame, if_neg hsame]
        exact poison_agrees .conflict (by decide)
  | none =>
      have hinsert : a.assembly.insert (format sha256) frame.piece =
          if a.totalLen < weight (a.chunks.set frame.index.val (some frame.chunk)) then
            .error .overflow
          else .ok { a.assembly with slots := a.chunks.set frame.index.val (some frame.chunk) } := by
        rw [Assembly.insert, hslots]
        rfl
      have hstore : store sha256 a frame =
          if 2 ^ 64 ≤ a.receivedBytes + frame.chunk.length then poison .malformedFrame
          else if a.totalLen < a.receivedBytes + frame.chunk.length then poison .malformedFrame
          else answer sha256 { a with
            receivedBytes := a.receivedBytes + frame.chunk.length
            chunks := a.chunks.set frame.index.val (some frame.chunk)
            received := a.received + 1 } := by
        rw [store, hslot]
      have hfits := h.fits
      have htotal := h.total
      have hchunk := hvalid.chunk.2.1
      have hbytes := h.receivedBytes
      have hsmall : ¬ 2 ^ 64 ≤ a.receivedBytes + frame.chunk.length := by
        simp only [maxQrMessageBytes, defaultQrChunkBytes] at htotal hchunk
        omega
      rw [hinsert, hstore, if_neg hsmall, weight_set hslot, ← hbytes]
      by_cases hover : a.totalLen < a.receivedBytes + frame.chunk.length
      · rw [if_pos hover, if_pos hover]
        exact poison_agrees .overflow (by decide)
      · rw [if_neg hover, if_neg hover]
        exact answer_agrees (set_consistent h hslot (not_lt.mp hover))

/-- A frame that is read meets an assembly. -/
theorem accept_agrees (h : a.Consistent) (hvalid : frame.Valid) :
    Agree
      (let outcome : Except QrError QrAssemblyStatus × QrReassembler :=
        if nowMs < a.startedAtMs then poison .clockRollback
        else if maxQrAssemblyAgeMs < nowMs.val - a.startedAtMs.val then poison .timeout
        else if frame.transferId ≠ a.transferId ∨ frame.digest ≠ a.digest ∨
            frame.count ≠ a.count ∨ frame.totalLen ≠ a.totalLen then
          (.error .differentTransfer, ⟨some a, false⟩)
        else store sha256 a frame
      (some outcome.1, outcome.2))
      (Receiver.accept (format sha256) a.assembly frame.piece nowMs.val) := by
  rw [Receiver.accept]
  by_cases hback : nowMs < a.startedAtMs
  · simp only [if_pos hback, if_pos (show nowMs.val < a.assembly.started from hback)]
    exact poison_agrees .rollback (by decide)
  simp only [if_neg hback, if_neg (show ¬ nowMs.val < a.assembly.started from hback)]
  by_cases hlate : maxQrAssemblyAgeMs < nowMs.val - a.startedAtMs.val
  · simp only [if_pos hlate, if_pos (show (format sha256).window < nowMs.val - a.assembly.started
      from hlate)]
    exact poison_agrees .timeout (by decide)
  simp only [if_neg hlate, if_neg (show ¬ (format sha256).window < nowMs.val - a.assembly.started
    from hlate)]
  have hforeign : (frame.transferId ≠ a.transferId ∨ frame.digest ≠ a.digest ∨
      frame.count ≠ a.count ∨ frame.totalLen ≠ a.totalLen) ↔
        frame.piece.header ≠ a.assembly.header := by
    simp only [Frame.piece, Frame.transfer, ActiveAssembly.assembly, ne_eq, Transfer.mk.injEq,
      Fin.val_inj]
    tauto
  by_cases hheader : frame.piece.header = a.assembly.header
  · simp only [if_neg (hforeign.not.mpr (not_not.mpr hheader)), if_neg (not_not.mpr hheader)]
    exact store_agrees h hvalid hheader
  · simp only [if_pos (hforeign.mpr hheader), if_pos hheader]
    exact ⟨.refused .foreign (by decide), .collecting a h⟩

/-- One call on the reassembler and on the receiver it stands for. -/
theorem respond_agrees (sha256 : List Byte → ProtocolDigest) (m : QrMinicbor) {r : QrReassembler} {receiver : Receiver Transfer Byte}
    (h : Related r receiver) (encoded : String) (nowMs : U64) :
    Agree (some (r.push sha256 m encoded nowMs).1, (r.push sha256 m encoded nowMs).2)
      (receiver.push (format sha256) (readPiece m) encoded nowMs.val) := by
  cases hframe : Frame.decodeText m encoded with
  | error error =>
      have hpiece : readPiece m encoded = none := by rw [readPiece, hframe]; rfl
      cases h with
      | poisoned => exact ⟨.refused .poisoned (by decide), .poisoned⟩
      | idle =>
          simp only [push, new, hframe, Receiver.push, hpiece]
          exact ⟨.undecodable error, .idle⟩
      | collecting a ha =>
          simp only [push, hframe, Receiver.push, hpiece]
          exact ⟨.undecodable error, .collecting a ha⟩
  | ok frame =>
      have hpiece : readPiece m encoded = some frame.piece := by rw [readPiece, hframe]; rfl
      have hvalid : frame.Valid := (Frame.decodeText_eq_ok.mp hframe).1
      cases h with
      | poisoned => exact ⟨.refused .poisoned (by decide), .poisoned⟩
      | idle =>
          simp only [push, new, hframe, Receiver.push, hpiece]
          exact accept_agrees (ActiveAssembly.start_consistent hvalid) hvalid
      | collecting a ha =>
          simp only [push, hframe, Receiver.push, hpiece]
          exact accept_agrees ha hvalid

end QrReassembler

end AgePluginPhone.Core.Qr
