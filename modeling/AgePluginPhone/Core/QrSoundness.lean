import AgePluginPhone.Core.QrTransfers

/-!
# Soundness of QR reassembly

What a completed message says of the pushes before it, whatever strings and readings they had.
-/

namespace AgePluginPhone.Core.Qr

open Library Fragments Reassembly

variable {sha256 : List Byte → ProtocolDigest} {m : QrMinicbor}

/-- A frame carried the chunk, as the fragment with this index, within the window of the
assembly. -/
def CarriedBy (m : QrMinicbor) (pushes : List QrReassembler.Call) (transfer : Transfer)
    (began : U64) (i : ℕ) (chunk : List Byte) : Prop :=
  ∃ encoded nowMs f, QrReassembler.Call.push encoded nowMs ∈ pushes ∧
    Frame.decodeText m encoded = .ok f ∧ f.transfer = transfer ∧ f.index.val = i ∧
    f.chunk = chunk ∧ began ≤ nowMs ∧ nowMs.val ≤ began.val + maxQrAssemblyAgeMs

/-- The calls since an assembly began: the push that found none, and those after it. -/
structure Assembled (sha256 : List Byte → ProtocolDigest) (m : QrMinicbor)
    (calls : List QrReassembler.Call) (transfer : Transfer) (began : U64)
    (pushes : List QrReassembler.Call) : Prop where
  calls : ∃ earlier, calls = earlier ++ pushes ∧
    QrReassembler.after sha256 m earlier = .new
  began : ∃ encoded f later, pushes = .push encoded began :: later ∧
    Frame.decodeText m encoded = .ok f ∧ f.transfer = transfer
  unbroken : QrReassembler.Call.reset ∉ pushes

/-- What a frame that is read does to the assembly under way to end it. -/
inductive Offence (sha256 : List Byte → ProtocolDigest) (a : ActiveAssembly) (f : Frame)
    (nowMs : U64) : Prop
  | rollback (h : nowMs < a.startedAtMs)
  | timeout (h : a.startedAtMs.val + maxQrAssemblyAgeMs < nowMs.val)
  | conflict (existing : List Byte) (htransfer : f.transfer = a.assembly.header)
      (hslot : a.chunks[f.index.val]? = some (some existing)) (h : existing ≠ f.chunk)
  | overflow (htransfer : f.transfer = a.assembly.header)
      (hslot : a.chunks[f.index.val]? = some none)
      (h : a.totalLen < a.receivedBytes + f.chunk.length)
  | mismatch (chunks : List (List Byte)) (htransfer : f.transfer = a.assembly.header)
      (hslots : a.chunks.set f.index.val (some f.chunk) = chunks.map some)
      (h : messageDigest sha256 chunks.flatten ≠ a.digest)

theorem readPiece_eq_some {encoded : String} {p : Piece Transfer Byte} :
    readPiece m encoded = some p ↔ ∃ f, Frame.decodeText m encoded = .ok f ∧ f.piece = p := by
  rw [readPiece]
  cases Frame.decodeText m encoded with
  | error error => simp [Except.toOption]
  | ok f => simp [Except.toOption]

theorem Related.idle_eq {r : QrReassembler} (h : Related r .idle) : r = .new := by
  cases h
  rfl

theorem Same.complete_eq {message : List Byte} {answer : Answer Byte}
    (h : Same (some (.ok (.complete message))) answer) : answer = .complete message := by
  cases h
  rfl

theorem carriedBy_of_carried {pushes : List QrReassembler.Call} {transfer : Transfer} {began : U64}
    {i : ℕ} {chunk : List Byte} (h : Carried (format sha256) (readPiece m)
      (pushes.map QrReassembler.Call.general) transfer began.val i chunk) :
    CarriedBy m pushes transfer began i chunk := by
  obtain ⟨encoded, now, hcall, hpiece, hfirst, hwindow⟩ := h
  obtain ⟨call, hmem, hgeneral⟩ := List.mem_map.mp hcall
  obtain ⟨f, hread, hf⟩ := readPiece_eq_some.mp hpiece
  simp only [Frame.piece, Piece.mk.injEq] at hf
  cases call with
  | reset => cases hgeneral
  | push text nowMs =>
      obtain ⟨rfl, rfl⟩ := (Reassembly.Call.push.injEq ..).mp hgeneral
      exact ⟨text, nowMs, f, hmem, hread, hf.1, hf.2.1, hf.2.2, hfirst, hwindow⟩

theorem assembled_of_since {calls pushes : List (Reassembly.Call String)}
    {past : List QrReassembler.Call} {transfer : Transfer} {began : ℕ}
    (hcalls : calls = past.map QrReassembler.Call.general)
    (h : Since (format sha256) (readPiece m) calls transfer began pushes) :
    ∃ (began' : U64) (pushes' : List QrReassembler.Call), began = began'.val ∧
      pushes = pushes'.map QrReassembler.Call.general ∧
      Assembled sha256 m past transfer began' pushes' := by
  obtain ⟨⟨earlier, hsplit, hidle⟩, ⟨text, i, chunk, later, hpushes, hpiece⟩, hunbroken⟩ := h
  obtain ⟨before, since, rfl, rfl, rfl⟩ := List.map_eq_append_iff.mp (hcalls.symm.trans hsplit)
  obtain ⟨call, rest, rfl, hfirst, -⟩ := List.map_eq_cons_iff.mp hpushes
  obtain ⟨f, hread, hf⟩ := readPiece_eq_some.mp hpiece
  cases call with
  | reset => cases hfirst
  | push encoded nowMs =>
      obtain ⟨rfl, rfl⟩ := (Reassembly.Call.push.injEq ..).mp hfirst
      have hnew := QrReassembler.after_related sha256 m before
      rw [hidle] at hnew
      refine ⟨nowMs, _, rfl, rfl, ⟨before, rfl, hnew.idle_eq⟩,
        ⟨encoded, f, rest, rfl, hread, congrArg Piece.header hf⟩, fun hreset => ?_⟩
      exact hunbroken _ (List.mem_map.mpr ⟨_, hreset, rfl⟩) rfl

/-- What a completed message is made of. -/
theorem complete_assembled {calls : List QrReassembler.Call} {encoded : String} {nowMs : U64}
    {message : List Byte}
    (h : ((QrReassembler.after sha256 m calls).push sha256 m encoded nowMs).1 =
      .ok (.complete message)) :
    ∃ transfer began pushes, ∃ chunks : List (List Byte),
      Assembled sha256 m (calls ++ [.push encoded nowMs]) transfer began pushes ∧
      chunks.length = transfer.count ∧ message = chunks.flatten ∧
      message.length = transfer.totalLen ∧ messageDigest sha256 message = transfer.digest ∧
      ∀ i (hi : i < chunks.length), CarriedBy m pushes transfer began i chunks[i] := by
  have hrelated := QrReassembler.after_related sha256 m calls
  have hagree := QrReassembler.respond_agrees sha256 m hrelated encoded nowMs
  have hsame := hagree.same
  simp only [h] at hsame
  obtain ⟨transfer, began, pushes, chunks, hsince, hcount, hflatten, htotal, hvalid, hcarried⟩ :=
    complete_explained hsame.complete_eq
  have hcalls : calls.map QrReassembler.Call.general ++ [Reassembly.Call.push encoded nowMs.val] =
      (calls ++ [QrReassembler.Call.push encoded nowMs]).map QrReassembler.Call.general := by
    rw [List.map_append]
    rfl
  obtain ⟨start, since, rfl, rfl, hassembled⟩ :=
    assembled_of_since hcalls hsince
  exact ⟨transfer, start, since, chunks, hassembled, hcount.symm ▸ rfl, hflatten, htotal,
    of_decide_eq_true hvalid, fun i hi => carriedBy_of_carried (hcarried i hi)⟩

/-- The assembly under way, and the counters that agree with it. -/
theorem Related.active_eq {r : QrReassembler} {receiver : Receiver Transfer Byte}
    {a : ActiveAssembly} (h : Related r receiver) (ha : r.active = some a) :
    a.Consistent ∧ r = ⟨some a, false⟩ ∧ receiver = .collecting a.assembly := by
  cases h with
  | idle => cases ha
  | poisoned => cases ha
  | collecting b hb =>
      obtain rfl : b = a := Option.some.inj ha
      exact ⟨hb, rfl, rfl⟩

/-- Every offence is refused and leaves the receiver poisoned. -/
theorem Offence.poisons {a : ActiveAssembly} {f : Frame} {nowMs : U64} (ha : a.Consistent)
    (h : Offence sha256 a f nowMs) : ∃ why,
      Receiver.accept (format sha256) a.assembly f.piece nowMs.val = (.refused why, .poisoned) := by
  rcases Receiver.accept_cases (F := format sha256) a.assembly f.piece nowMs.val with
    ⟨why, hcase⟩ | ⟨hfirst, hwindow, hrest⟩
  · exact ⟨why, hcase⟩
  · cases h with
    | rollback h => exact absurd hfirst (not_le.mpr h)
    | timeout h => exact absurd hwindow (not_le.mpr h)
    | conflict existing htransfer hslot h =>
        have hinsert : a.assembly.insert (format sha256) f.piece = .error .conflict := by
          rw [Assembly.insert, show a.assembly.slots[f.piece.index]? = _ from hslot]
          exact if_neg h
        rcases hrest with ⟨hheader, -⟩ | ⟨-, b, hb, -⟩
        · exact absurd htransfer hheader
        · rw [hinsert] at hb
          cases hb
    | overflow htransfer hslot h =>
        have hweight : (format sha256).total a.assembly.header <
            weight (a.assembly.slots.set f.piece.index (some f.piece.chunk)) := by
          rw [weight_set (show a.assembly.slots[f.piece.index]? = some none from hslot)]
          exact ha.receivedBytes ▸ h
        have hinsert : a.assembly.insert (format sha256) f.piece = .error .overflow := by
          rw [Assembly.insert, show a.assembly.slots[f.piece.index]? = _ from hslot]
          exact if_pos hweight
        rcases hrest with ⟨hheader, -⟩ | ⟨-, b, hb, -⟩
        · exact absurd htransfer hheader
        · rw [hinsert] at hb
          cases hb
    | mismatch chunks htransfer hslots h =>
        rcases hrest with ⟨hheader, -⟩ | ⟨-, b, hb, hanswer⟩
        · exact absurd htransfer hheader
        · have hb : b.header = a.assembly.header ∧ b.slots = chunks.map some := by
            rcases Assembly.insert_eq_ok hb with ⟨rfl, hsame⟩ | ⟨-, rfl⟩
            · exact ⟨rfl, (set_held hsame).symm.trans hslots⟩
            · exact ⟨rfl, hslots⟩
          rcases hanswer with ⟨hmissing, -⟩ | ⟨message, hmessage, -⟩
          · refine absurd ?_ hmissing
            have hlength : chunks.length = a.chunks.length := by
              simpa using (congrArg List.length hslots).symm
            have hreceived : b.received = chunks.length := by
              rw [Assembly.received, countP_isSome_eq_length.mpr ⟨chunks, hb.2⟩, hb.2,
                List.length_map]
            rw [hb.1, hreceived, hlength]
            exact ha.length
          · obtain ⟨found, hfound, -, hflatten, -, hvalid⟩ := Assembly.message_eq_ok.mp hmessage
            have hsame : found = chunks :=
              List.map_injective_iff.mpr (Option.some_injective _) (hfound.symm.trans hb.2)
            rw [hb.1, hflatten, hsame] at hvalid
            exact absurd (of_decide_eq_true hvalid) h

theorem poisoned_refuses {r : QrReassembler} (hpoisoned : r = ⟨none, true⟩)
    (later : List QrReassembler.Call) (hlater : QrReassembler.Call.reset ∉ later)
    (encoded : String) (nowMs : U64) :
    ((Transducer.final (QrReassembler.respond sha256 m) r later).push sha256 m encoded nowMs).1 =
      .error .poisoned := by
  subst hpoisoned
  induction later with
  | nil => rfl
  | cons call later ih =>
      cases call with
      | reset => exact absurd List.mem_cons_self hlater
      | push text now => exact ih fun hreset => hlater (List.mem_cons_of_mem _ hreset)

/-- After an offence every push fails until the reassembler is reset. -/
theorem offence_refuses {r : QrReassembler} {receiver : Receiver Transfer Byte}
    (hrelated : Related r receiver) {a : ActiveAssembly} {f : Frame} {encoded : String}
    {nowMs : U64} (ha : r.active = some a) (hread : Frame.decodeText m encoded = .ok f)
    (h : Offence sha256 a f nowMs) :
    (∃ error, (r.push sha256 m encoded nowMs).1 = .error error) ∧
      (r.push sha256 m encoded nowMs).2 = ⟨none, true⟩ := by
  obtain ⟨hconsistent, -, rfl⟩ := hrelated.active_eq ha
  obtain ⟨why, hrefused⟩ := h.poisons hconsistent
  have hagree := QrReassembler.respond_agrees sha256 m hrelated encoded nowMs
  have hpiece : readPiece m encoded = some f.piece := readPiece_eq_some.mpr ⟨f, hread, rfl⟩
  have hpush : (Receiver.collecting a.assembly).push (format sha256) (readPiece m) encoded nowMs.val =
      (.refused why, .poisoned) := by
    simp only [Receiver.push, hpiece, hrefused]
  rw [hpush] at hagree
  obtain ⟨hsame, hstate⟩ := hagree
  constructor
  · generalize (r.push sha256 m encoded nowMs).1 = answer at hsame
    cases hsame
    · exact ⟨_, rfl⟩
    · exact ⟨_, rfl⟩
  · generalize (r.push sha256 m encoded nowMs).2 = next at hstate
    cases hstate
    rfl

def foreignFrame : Frame := { sampleFrame 0 with transferId := Bytes.replicate 16 8 }

end AgePluginPhone.Core.Qr
