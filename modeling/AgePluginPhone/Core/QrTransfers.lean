import AgePluginPhone.Core.QrReassembly

/-!
# Transfers of QR messages

What the desktop's reassembler answers over a whole run of calls.
-/

namespace AgePluginPhone.Core.Qr

open Library Fragments Reassembly

namespace QrReassembler

variable (sha256 : List Byte → ProtocolDigest) (m : QrMinicbor)

/-- The answer to a call, and whether the reassembler is poisoned after it. -/
def report (r : QrReassembler) (call : Call) :
    (Option (Except QrError QrAssemblyStatus) × Bool) × QrReassembler :=
  let outcome := r.respond sha256 m call
  ((outcome.1, outcome.2.poisoned), outcome.2)

/-- The reassembler after the calls. -/
def after (calls : List Call) : QrReassembler :=
  Transducer.final (respond sha256 m) new calls

def Call.general : Call → Reassembly.Call String
  | .push encoded nowMs => .push encoded nowMs.val
  | .reset => .reset

theorem respond_call_agrees {r : QrReassembler} {receiver : Receiver Transfer Byte}
    (h : Related r receiver) (call : Call) :
    Agree (r.respond sha256 m call)
      (receiver.respond (format sha256) (readPiece m) call.general) := by
  cases call with
  | push encoded nowMs => exact respond_agrees sha256 m h encoded nowMs
  | reset => exact ⟨.none, .idle⟩

/-- After every run the reassembler stands for the receiver that took the same calls. -/
theorem after_related (calls : List Call) :
    Related (after sha256 m calls)
      (Reassembly.after (format sha256) (readPiece m) (calls.map Call.general)) := by
  rw [Reassembly.after, ← Transducer.final_map]
  refine (Transducer.simulation (respond sha256 m)
    (fun r call => Receiver.respond (format sha256) (readPiece m) r call.general) Related Same
    (fun _ => True) (fun r receiver call _ h => ?_) (fun _ _ => True.intro) Related.idle).2
  have hagree := respond_call_agrees sha256 m h call
  exact ⟨hagree.same, hagree.related⟩

/-- A reported answer of the desktop and the one it stands for. -/
structure SameReport (x : Option (Except QrError QrAssemblyStatus) × Bool) (y : Answer Byte × Bool) :
    Prop where
  answer : Same x.1 y.1
  poisoned : x.2 = y.2

/-- Every run is answered as the receiver answers the same calls. -/
theorem answers_agree (calls : List Call) :
    List.Forall₂ SameReport (Transducer.answers (report sha256 m) new calls)
      (Transducer.answers (Receiver.report (format sha256) (readPiece m)) .idle
        (calls.map Call.general)) := by
  rw [← Transducer.answers_map]
  refine (Transducer.simulation (report sha256 m)
    (fun r call => Receiver.report (format sha256) (readPiece m) r call.general) Related SameReport
    (fun _ => True) (fun r receiver call _ h => ?_) (fun _ _ => True.intro) Related.idle).1
  have hagree := respond_call_agrees sha256 m h call
  exact ⟨⟨hagree.same, hagree.related.poisoned_eq⟩, hagree.related⟩

end QrReassembler

section Fragments

variable (sha256 : List Byte → ProtocolDigest) (message : List Byte) (chunkBytes : ℕ)
  (transferId : Bytes 16)

/-- The frame of the piece with this index. -/
def fragment (i : ℕ) : Frame where
  transferId := transferId
  digest := messageDigest sha256 message
  index := Fin.ofNat 65536 i
  count := Fin.ofNat 65536 (pieceCount chunkBytes message.length)
  totalLen := message.length
  chunk := piece chunkBytes message i

/-- The transfer the frames of the message belong to. -/
def announcement : Transfer :=
  ⟨transferId, messageDigest sha256 message, pieceCount chunkBytes message.length, message.length⟩

/-- A message that is cut into frames. -/
structure Fragmentable (message : List Byte) (chunkBytes : ℕ) : Prop where
  nonempty : message ≠ []
  short : message.length ≤ maxQrMessageBytes
  chunk : 1 ≤ chunkBytes ∧ chunkBytes ≤ defaultQrChunkBytes
  count : pieceCount chunkBytes message.length ≤ maxQrFragments

variable {sha256 message chunkBytes transferId} {i : ℕ}

theorem toU16_eq_ok (h : i < 65536) : toU16 i = .ok (Fin.ofNat 65536 i) := by
  rw [toU16, dif_pos h]
  congr 1
  exact Fin.ext (Nat.mod_eq_of_lt h).symm

theorem Fragmentable.count_lt (h : Fragmentable message chunkBytes) :
    pieceCount chunkBytes message.length < 65536 :=
  lt_of_le_of_lt h.count (by decide)

theorem Fragmentable.fragment_count (h : Fragmentable message chunkBytes) :
    (fragment sha256 message chunkBytes transferId i).count.val =
      pieceCount chunkBytes message.length :=
  Nat.mod_eq_of_lt h.count_lt

theorem Fragmentable.fragment_index (h : Fragmentable message chunkBytes)
    (hi : i < pieceCount chunkBytes message.length) :
    (fragment sha256 message chunkBytes transferId i).index.val = i :=
  Nat.mod_eq_of_lt (hi.trans h.count_lt)

theorem Fragmentable.valid (h : Fragmentable message chunkBytes)
    (hi : i < pieceCount chunkBytes message.length) :
    (fragment sha256 message chunkBytes transferId i).Valid where
  count := by
    rw [h.fragment_count]
    exact ⟨Nat.zero_lt_of_lt hi, h.count⟩
  index := by
    rw [Fin.lt_def, h.fragment_count, h.fragment_index hi]
    exact hi
  total := ⟨List.length_pos_of_ne_nil h.nonempty, h.short⟩
  chunk := ⟨piece_ne_nil h.chunk.1 hi, (piece_length_le i).trans h.chunk.2,
    piece_length_le_message i⟩

private theorem zipIdx_pieces : (pieces chunkBytes message).zipIdx =
    (List.range (pieceCount chunkBytes message.length)).map
      fun i => (piece chunkBytes message i, i) := by
  apply List.ext_getElem
  · simp [pieces]
  · intro i hi hrange
    simp [pieces]

theorem fragmentQrMessage_eq (h : Fragmentable message chunkBytes) :
    fragmentQrMessage sha256 message chunkBytes transferId =
      .ok ((List.range (pieceCount chunkBytes message.length)).map
        fun i => (fragment sha256 message chunkBytes transferId i).text) := by
  have hencode : ∀ chunk ∈ (pieces chunkBytes message).zipIdx, (do
      let index ← toU16 chunk.2
      let count ← toU16 (pieceCount chunkBytes message.length)
      Frame.encodeText ⟨transferId, messageDigest sha256 message, index, count, message.length,
        chunk.1⟩) = .ok (fragment sha256 message chunkBytes transferId chunk.2).text := by
    rw [zipIdx_pieces]
    intro chunk hchunk
    obtain ⟨i, hi, rfl⟩ := List.mem_map.mp hchunk
    have hindex := List.mem_range.mp hi
    dsimp only
    rw [toU16_eq_ok (hindex.trans h.count_lt), toU16_eq_ok h.count_lt]
    exact Frame.encodeText_eq_ok (h.valid hindex)
  rw [fragmentQrMessage, ensure_true _ ⟨h.nonempty, h.short⟩, ensure_true _ h.chunk]
  simp only [ok_bind]
  rw [ensure_true _ h.count, ok_bind, mapM_eq_ok hencode, zipIdx_pieces, List.map_map]
  rfl

theorem Fragmentable.announced (h : Fragmentable message chunkBytes) :
    Announced (format sha256) (announcement sha256 message chunkBytes transferId)
      (pieces chunkBytes message) := by
  have hflatten : (pieces chunkBytes message).flatten = message := flatten_pieces h.chunk.1
  refine ⟨?_, ?_, evenSizes_pieces h.chunk.1 h.nonempty, ?_⟩
  · simp [format, announcement, pieces]
  · rw [hflatten]
    rfl
  · rw [hflatten]
    exact decide_eq_true rfl

variable (m : QrMinicbor)

/-- A string that may be pushed during a transfer: one of its frames, no frame at all, or a frame
of another transfer. -/
def Permitted (transfer : Transfer) (frames : List String) (encoded : String) : Prop :=
  encoded ∈ frames ∨ (∃ error, Frame.decodeText m encoded = .error error) ∨
    ∃ f, Frame.decodeText m encoded = .ok f ∧ f.transfer ≠ transfer

/-- In progress, or an error. -/
def Unfinished : Option (Except QrError QrAssemblyStatus) → Prop
  | some (.ok (.inProgress _ _)) => True
  | some (.error _) => True
  | _ => False

variable {m}

theorem unfinished_of_same {x : Option (Except QrError QrAssemblyStatus) × Bool}
    {y : Answer Byte × Bool} (h : QrReassembler.SameReport x y) (hwaiting : Waiting y.1)
    (hpoisoned : y.2 = false) : Unfinished x.1 ∧ x.2 = false := by
  refine ⟨?_, h.poisoned.trans hpoisoned⟩
  have hanswer := h.answer
  generalize x.1 = answer at hanswer
  generalize y.1 = expected at hanswer hwaiting
  cases hwaiting <;> cases hanswer <;> exact True.intro

theorem complete_of_same {x : Option (Except QrError QrAssemblyStatus) × Bool}
    (h : QrReassembler.SameReport x (.complete message, false)) :
    x = (some (.ok (.complete message)), false) := by
  obtain ⟨answer, poisoned⟩ := x
  obtain rfl : poisoned = false := h.poisoned
  have hanswer := h.answer
  cases hanswer
  rfl

theorem Permitted.expected {encoded : String}
    (h : Permitted m (announcement sha256 message chunkBytes transferId)
      ((List.range (pieceCount chunkBytes message.length)).map
        fun i => (fragment sha256 message chunkBytes transferId i).text) encoded) :
    Expected (readPiece m) (announcement sha256 message chunkBytes transferId)
      (pieces chunkBytes message).length (fun i => (fragment sha256 message chunkBytes transferId i).text) encoded := by
  have hcount : (pieces chunkBytes message).length = pieceCount chunkBytes message.length := by
    simp [pieces]
  rcases h with hframe | ⟨error, herror⟩ | ⟨f, hread, hother⟩
  · obtain ⟨i, hi, rfl⟩ := List.mem_map.mp hframe
    exact Or.inl ⟨i, by rw [hcount]; exact List.mem_range.mp hi, rfl⟩
  · refine Or.inr (Or.inl ?_)
    rw [readPiece, herror]
    rfl
  · refine Or.inr (Or.inr ⟨f.piece, ?_, hother⟩)
    rw [readPiece, hread]
    rfl

/-- The piece each frame is read as. -/
theorem Fragmentable.readPiece_text (h : Fragmentable message chunkBytes) (i : ℕ)
    (hi : i < (pieces chunkBytes message).length) :
    readPiece m (fragment sha256 message chunkBytes transferId i).text =
      some ⟨announcement sha256 message chunkBytes transferId, i,
        (pieces chunkBytes message)[i]⟩ := by
  have hcount : i < pieceCount chunkBytes message.length := by simpa [pieces] using hi
  rw [readPiece, Frame.decodeText_eq_ok.mpr ⟨h.valid hcount, rfl⟩]
  have hpiece : (pieces chunkBytes message)[i] = piece chunkBytes message i := by simp [pieces]
  simp only [Except.toOption, Option.map_some, Frame.piece, Frame.transfer, h.fragment_count,
    h.fragment_index hcount, hpiece]
  rfl

/-- Every message is put together from its frames, in any order and with any noise among them, at
the push of the last missing frame. -/
theorem fragments_complete (sha256 : List Byte → ProtocolDigest) (transferId : Bytes 16)
    (m : QrMinicbor) (h : Fragmentable message chunkBytes) :
    ∃ frames, fragmentQrMessage sha256 message chunkBytes transferId = .ok frames ∧
      ∀ (first : String × U64) (pushes : List (String × U64)), first.1 ∈ frames →
        (∀ p ∈ first :: pushes,
          Permitted m (announcement sha256 message chunkBytes transferId) frames p.1 ∧
            first.2 ≤ p.2 ∧ p.2.val ≤ first.2.val + maxQrAssemblyAgeMs) →
        (∀ frame ∈ frames, ∃ p ∈ first :: pushes, p.1 = frame) →
        ∃ before last later, first :: pushes = before ++ last :: later ∧
          last.1 ∈ frames ∧ (∀ p ∈ before, p.1 ≠ last.1) ∧
          (∀ frame ∈ frames, ∃ p ∈ before ++ [last], p.1 = frame) ∧
          ∃ early, Transducer.answers (QrReassembler.report sha256 m) .new
              ((before ++ [last]).map fun p => .push p.1 p.2) =
            early ++ [(some (.ok (.complete message)), false)] ∧
            ∀ x ∈ early, Unfinished x.1 ∧ x.2 = false := by
  refine ⟨_, fragmentQrMessage_eq h, fun first pushes hfirst hpushes hall => ?_⟩
  have hcount : (pieces chunkBytes message).length = pieceCount chunkBytes message.length := by
    simp [pieces]
  let readings (pushes : List (String × U64)) := pushes.map fun p => (p.1, p.2.val)
  have hreadings (pushes : List (String × U64)) : pushCalls (readings pushes) =
      (pushes.map fun p => QrReassembler.Call.push p.1 p.2).map QrReassembler.Call.general := by
    rw [pushCalls, List.map_map, List.map_map]
    rfl
  have hexpected : ∀ p ∈ readings (first :: pushes),
      Expected (readPiece m) (announcement sha256 message chunkBytes transferId)
        (pieces chunkBytes message).length (fun i => (fragment sha256 message chunkBytes transferId i).text) p.1 ∧
        first.2.val ≤ p.2 ∧ p.2 ≤ first.2.val + (format sha256).window := by
    intro p hp
    obtain ⟨q, hq, rfl⟩ := List.mem_map.mp hp
    obtain ⟨hpermitted, hafter, hwindow⟩ := hpushes q hq
    exact ⟨hpermitted.expected, hafter, hwindow⟩
  have hcovered : ∀ i < (pieces chunkBytes message).length, ∃ p ∈ readings (first :: pushes),
      p.1 = (fragment sha256 message chunkBytes transferId i).text := by
    intro i hi
    rw [hcount] at hi
    obtain ⟨p, hp, htext⟩ := hall _ (List.mem_map.mpr ⟨i, List.mem_range.mpr hi, rfl⟩)
    exact ⟨_, List.mem_map.mpr ⟨p, hp, rfl⟩, htext⟩
  have hfirstFrame : ∃ i < (pieces chunkBytes message).length, (first.1, first.2.val).1 =
      (fragment sha256 message chunkBytes transferId i).text := by
    obtain ⟨i, hi, htext⟩ := List.mem_map.mp hfirst
    exact ⟨i, by rw [hcount]; exact List.mem_range.mp hi, htext.symm⟩
  obtain ⟨early', last', hdelivered⟩ := delivered_idle h.announced h.readPiece_text
    hfirstFrame hexpected hcovered
  obtain ⟨⟨later', hsplit⟩, ⟨j, hj, -, hlast⟩, hfresh, hframes, early, hanswers, hwaiting⟩ := hdelivered
  have hsplit : readings (first :: pushes) = early' ++ last' :: later' := hsplit
  obtain ⟨before, after, hboth, rfl, hrest⟩ := List.map_eq_append_iff.mp hsplit
  obtain ⟨last, later, rfl, rfl, -⟩ := List.map_eq_cons_iff.mp hrest
  have hstarts : before.map (fun p => (p.1, p.2.val)) ++ [(last.1, last.2.val)] =
      readings (before ++ [last]) := by
    simp [readings]
  rw [hstarts] at hanswers hframes
  refine ⟨before, last, later, hboth, ?_, ?_, ?_, ?_⟩
  · rw [hcount] at hj
    exact List.mem_map.mpr ⟨j, List.mem_range.mpr hj, hlast.symm⟩
  · intro p hp
    exact hfresh _ (List.mem_map.mpr ⟨p, hp, rfl⟩)
  · intro frame hframe
    obtain ⟨k, hk, rfl⟩ := List.mem_map.mp hframe
    rcases hframes k (by rw [hcount]; exact List.mem_range.mp hk) with hseen | ⟨q, hq, hsame⟩
    · simp at hseen
    · obtain ⟨p, hp, rfl⟩ := List.mem_map.mp hq
      exact ⟨p, hp, hsame⟩
  · have hagree := QrReassembler.answers_agree sha256 m
      ((before ++ [last]).map fun p => QrReassembler.Call.push p.1 p.2)
    rw [← hreadings, hanswers, flatten_pieces h.chunk.1] at hagree
    obtain ⟨answered, x, hx, hearly, hcomplete⟩ := Transducer.forall₂_concat hagree
    refine ⟨answered, by rw [hx, complete_of_same hcomplete], fun y hy => ?_⟩
    obtain ⟨k, hk, rfl⟩ := List.getElem_of_mem hy
    have hlength := hearly.length_eq
    have hsame := (List.forall₂_iff_get.mp hearly).2 k hk (hlength ▸ hk)
    have hwait := hwaiting _ (List.get_mem early ⟨k, hlength ▸ hk⟩)
    exact unfinished_of_same hsame hwait.1 hwait.2

def sampleTransferId : Bytes 16 := Bytes.replicate 16 7

def sampleFrame (i : ℕ) : Frame :=
  fragment (fun _ => Bytes.replicate 32 1) [1, 2, 3] 2 sampleTransferId i

theorem fragments_complete_sample :
    ∃ before last later,
      [((sampleFrame 1).text, 5), ("noise", 7), ((sampleFrame 0).text, 30005)] =
        before ++ last :: later ∧
      ∃ early, Transducer.answers
          (QrReassembler.report (fun _ => Bytes.replicate 32 1) QrMinicbor.definite) .new
          ((before ++ [last]).map fun p => .push p.1 p.2) =
        early ++ [(some (.ok (.complete [1, 2, 3])), false)] := by
  have hmessage : Fragmentable [1, 2, 3] 2 := ⟨by decide, by decide, by decide, by decide⟩
  obtain ⟨frames, hframes, hrun⟩ := fragments_complete (fun _ => Bytes.replicate 32 1)
    sampleTransferId QrMinicbor.definite hmessage
  obtain rfl : frames = [(sampleFrame 0).text, (sampleFrame 1).text] := by
    rw [fragmentQrMessage_eq hmessage] at hframes
    exact (Except.ok.inj hframes).symm
  have hnoise : ∃ error, Frame.decodeText QrMinicbor.definite "noise" = .error error :=
    ⟨.malformedFrame, by decide +kernel⟩
  obtain ⟨before, last, later, hsplit, -, -, -, early, hanswers, -⟩ :=
    hrun ((sampleFrame 1).text, 5) [("noise", 7), ((sampleFrame 0).text, 30005)] (by simp)
      (by simp [Permitted, hnoise, maxQrAssemblyAgeMs]) (by simp)
  exact ⟨before, last, later, hsplit, early, hanswers⟩

end Fragments

end AgePluginPhone.Core.Qr
