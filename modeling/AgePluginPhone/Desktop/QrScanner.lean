import AgePluginPhone.Core.QrTransfers
import AgePluginPhone.Library.Recovery

/-!
# The scan of a QR response

A scan session offers each decoded text to the reassembler, and resets it when an assembly has timed
out.
-/

namespace AgePluginPhone.Desktop.QrScanner

open Library Fragments Reassembly AgePluginPhone.Core AgePluginPhone.Core.Qr

def transportPrefix : String := "age-phone:qr1:"

inductive ScanError
  | cameraUnavailable
  | unsupportedFrame
  | timeout
  | cancelled
  | invalidTransfer
  deriving DecidableEq

inductive ScanProgress
  | waiting
  | receiving (received total : ℕ)
  deriving DecidableEq

abbrev ScanUpdate := Except ScanError (ScanProgress × Option (List Byte))

structure ScanSession where
  assembly : QrReassembler
  startedAtMs : U64
  deadlineMs : U64
  cancelled : Bool

def maxU64 : ℕ := 18446744073709551615

namespace ScanSession

/-- A session with a deadline that saturates, as the timeout does. -/
def new (startedAtMs : U64) (timeoutMs : ℕ) : ScanSession where
  assembly := .new
  startedAtMs := startedAtMs
  deadlineMs := ⟨min (startedAtMs.val + min timeoutMs maxU64) maxU64, by
    simp only [maxU64]
    omega⟩
  cancelled := false

def cancel (s : ScanSession) : ScanSession := { s with cancelled := true }

def tick (s : ScanSession) (nowMs : U64) : Except ScanError ScanProgress :=
  if s.cancelled then .error .cancelled
  else if nowMs < s.startedAtMs ∨ s.deadlineMs < nowMs then .error .timeout
  else .ok .waiting

/-- What a status of the reassembler is reported as. -/
def progressOf : QrAssemblyStatus → ScanProgress × Option (List Byte)
  | .inProgress received total => (.receiving received total, none)
  | .complete message => (.waiting, some message)

variable (sha256 : List Byte → ProtocolDigest) (m : QrMinicbor)

/-- The push after a timeout, on the reset reassembler. -/
def pushAgain (s : ScanSession) (decodedText : String) (nowMs : U64) : ScanUpdate × ScanSession :=
  let pushed := s.assembly.reset.push sha256 m decodedText nowMs
  match pushed.1 with
  | .ok status => (.ok (progressOf status), { s with assembly := pushed.2 })
  | .error _ => (.error .invalidTransfer, { s with assembly := pushed.2 })

def push (s : ScanSession) (decodedText : String) (nowMs : U64) : ScanUpdate × ScanSession :=
  match s.tick nowMs with
  | .error failure => (.error failure, s)
  | .ok _ =>
      if ¬ transportPrefix.toList <+: decodedText.toList then (.ok (.waiting, none), s)
      else
        let pushed := s.assembly.push sha256 m decodedText nowMs
        let s := { s with assembly := pushed.2 }
        match pushed.1 with
        | .ok status => (.ok (progressOf status), s)
        | .error .malformedFrame => (.ok (.waiting, none), s)
        | .error .unsupportedVersion => (.ok (.waiting, none), s)
        | .error .unsupportedType => (.ok (.waiting, none), s)
        | .error .differentTransfer => (.ok (.waiting, none), s)
        | .error .timeout => s.pushAgain sha256 m decodedText nowMs
        | .error _ => (.error .invalidTransfer, s)

/-- A push as an event: the decoded text and the time. -/
def scan (s : ScanSession) (push : String × U64) : ScanUpdate × ScanSession :=
  s.push sha256 m push.1 push.2

end ScanSession

section Refinement

variable {sha256 : List Byte → ProtocolDigest} {m : QrMinicbor}

/-- What a session answers where the receiver passes a piece by, gathers it or completes with it. -/
inductive Reports : ScanUpdate → Answer Byte → Prop
  | progress (received total : ℕ) :
      Reports (.ok (.receiving received total, none)) (.progress received total)
  | complete (message : List Byte) : Reports (.ok (.waiting, some message)) (.complete message)
  | undecodable : Reports (.ok (.waiting, none)) (.refused .undecodable)
  | foreign : Reports (.ok (.waiting, none)) (.refused .foreign)
  | refused {why : Refusal} (update : ScanUpdate) : why ≠ .undecodable → why ≠ .foreign →
      Reports update (.refused why)

theorem Reports.complete_eq {update : ScanUpdate} {answer : Answer Byte} {message : List Byte}
    (h : Reports update answer) (hcomplete : answer = .complete message) :
    update = .ok (.waiting, some message) := by
  subst hcomplete
  cases h
  rfl

/-- An open session and the receiver it stands for. -/
structure Stands (startedAtMs deadlineMs : U64) (s : ScanSession) (r : Receiver Transfer Byte) :
    Prop where
  started : s.startedAtMs = startedAtMs
  deadline : s.deadlineMs = deadlineMs
  cancelled : s.cancelled = false
  related : Related s.assembly r

variable {startedAtMs deadlineMs : U64} {s : ScanSession} {r : Receiver Transfer Byte}
  {decodedText : String} {nowMs : U64}

theorem Stands.tick_eq (h : Stands startedAtMs deadlineMs s r) (hstarted : startedAtMs ≤ nowMs)
    (hdeadline : nowMs ≤ deadlineMs) : s.tick nowMs = .ok .waiting := by
  unfold ScanSession.tick
  rw [if_neg (by simp [h.cancelled]), if_neg]
  rw [h.started, h.deadline]
  simp [hstarted, hdeadline]

theorem Stands.update (h : Stands startedAtMs deadlineMs s r) {assembly : QrReassembler}
    {next : Receiver Transfer Byte} (hrelated : Related assembly next) :
    Stands startedAtMs deadlineMs { s with assembly := assembly } next :=
  ⟨h.started, h.deadline, h.cancelled, hrelated⟩

/-- The session and the receiver after a push on both. -/
def PushAgrees (sha256 : List Byte → ProtocolDigest) (m : QrMinicbor) (startedAtMs deadlineMs : U64)
    (s : ScanSession) (r : Receiver Transfer Byte) (decodedText : String) (nowMs : U64) : Prop :=
  Reports (s.push sha256 m decodedText nowMs).1
      (r.offer (format sha256) (readPiece m) decodedText nowMs.val).1 ∧
    Stands startedAtMs deadlineMs (s.push sha256 m decodedText nowMs).2
      (r.offer (format sha256) (readPiece m) decodedText nowMs.val).2

/-- A string that is no frame. -/
theorem Stands.noise (h : Stands startedAtMs deadlineMs s r) (hstarted : startedAtMs ≤ nowMs)
    (hdeadline : nowMs ≤ deadlineMs) {failure : QrError}
    (hdecode : Frame.decodeText m decodedText = .error failure) :
    PushAgrees sha256 m startedAtMs deadlineMs s r decodedText nowMs := by
  have hpiece : readPiece m decodedText = none := by
    rw [readPiece, hdecode]
    rfl
  unfold PushAgrees ScanSession.push
  rw [h.tick_eq hstarted hdeadline]
  dsimp only
  cases hpoisoned : s.assembly.poisoned with
  | true =>
      have hr : r = .poisoned := by
        have hboth := h.related.poisoned_eq
        rw [hpoisoned] at hboth
        cases r with
        | poisoned => rfl
        | _ => cases hboth
      subst hr
      have hpush : s.assembly.push sha256 m decodedText nowMs = (.error .poisoned, s.assembly) := by
        rw [QrReassembler.push, if_pos hpoisoned]
      rw [offer_eq_push (by simp [Receiver.push]), hpush]
      by_cases hprefix : transportPrefix.toList <+: decodedText.toList
      · rw [if_neg (not_not.mpr hprefix)]
        exact ⟨.refused _ (by decide) (by decide), h⟩
      · rw [if_pos hprefix]
        exact ⟨.refused _ (by decide) (by decide), h⟩
  | false =>
      have hr : r ≠ .poisoned := by
        intro hr
        have hboth := h.related.poisoned_eq
        rw [hpoisoned, hr] at hboth
        cases hboth
      have hpush : s.assembly.push sha256 m decodedText nowMs = (.error failure, s.assembly) := by
        rw [QrReassembler.push, hpoisoned, if_neg (by simp), hdecode]
      rw [offer_noise hpiece hr, hpush]
      by_cases hprefix : transportPrefix.toList <+: decodedText.toList
      · rw [if_neg (not_not.mpr hprefix)]
        cases Frame.decodeText_unframed hdecode with
        | malformed => exact ⟨.undecodable, h⟩
        | version => exact ⟨.undecodable, h⟩
        | type => exact ⟨.undecodable, h⟩
      · rw [if_pos hprefix]
        exact ⟨.undecodable, h⟩

/-- The push on the reset reassembler. -/
theorem Stands.again (h : Stands startedAtMs deadlineMs s r)
    (hread : readPiece m decodedText ≠ none) :
    Reports (s.pushAgain sha256 m decodedText nowMs).1
        (Receiver.idle.push (format sha256) (readPiece m) decodedText nowMs.val).1 ∧
      Stands startedAtMs deadlineMs (s.pushAgain sha256 m decodedText nowMs).2
        (Receiver.idle.push (format sha256) (readPiece m) decodedText nowMs.val).2 := by
  obtain ⟨p, hpiece⟩ := Option.ne_none_iff_exists'.mp hread
  obtain ⟨hsame, hrelated⟩ := QrReassembler.respond_agrees sha256 m .idle decodedText nowMs
  have hdecoded : (Receiver.idle.push (format sha256) (readPiece m) decodedText nowMs.val).1 ≠
      .refused .undecodable := push_ne_undecodable hpiece
  have hown : (Receiver.idle.push (format sha256) (readPiece m) decodedText nowMs.val).1 ≠
      .refused .foreign := idle_push_ne_foreign
  unfold ScanSession.pushAgain QrReassembler.reset
  generalize QrReassembler.new.push sha256 m decodedText nowMs = pushed at *
  generalize Receiver.idle.push (format sha256) (readPiece m) decodedText nowMs.val = outcome at *
  obtain ⟨answer, assembly⟩ := pushed
  obtain ⟨expected, next⟩ := outcome
  dsimp only at *
  cases hsame with
  | progress received total => exact ⟨.progress received total, h.update hrelated⟩
  | complete message => exact ⟨.complete message, h.update hrelated⟩
  | refused why hwhy =>
      exact ⟨.refused _ hwhy fun hforeign => hown (by rw [hforeign]), h.update hrelated⟩
  | undecodable error => exact absurd rfl hdecoded

/-- The text of a frame. -/
theorem Stands.frame (h : Stands startedAtMs deadlineMs s r) (hstarted : startedAtMs ≤ nowMs)
    (hdeadline : nowMs ≤ deadlineMs) {f : Frame}
    (hdecode : Frame.decodeText m decodedText = .ok f) :
    PushAgrees sha256 m startedAtMs deadlineMs s r decodedText nowMs := by
  have hprefix : transportPrefix.toList <+: decodedText.toList := by
    rw [(Frame.decodeText_eq_ok.mp hdecode).2]
    exact Frame.prefix_text f
  have hpiece : readPiece m decodedText = some f.piece := by
    rw [readPiece, hdecode]
    rfl
  have hread : readPiece m decodedText ≠ none := by simp [hpiece]
  obtain ⟨hsame, hrelated⟩ := QrReassembler.respond_agrees sha256 m h.related decodedText nowMs
  have hdecoded : (r.push (format sha256) (readPiece m) decodedText nowMs.val).1 ≠
      .refused .undecodable := push_ne_undecodable hpiece
  unfold PushAgrees ScanSession.push Receiver.offer
  rw [h.tick_eq hstarted hdeadline]
  dsimp only
  rw [if_neg (not_not.mpr hprefix)]
  generalize s.assembly.push sha256 m decodedText nowMs = pushed at *
  generalize r.push (format sha256) (readPiece m) decodedText nowMs.val = outcome at *
  obtain ⟨answer, assembly⟩ := pushed
  obtain ⟨expected, next⟩ := outcome
  dsimp only at *
  have hstands := h.update hrelated
  cases hsame with
  | progress received total => exact ⟨.progress received total, hstands⟩
  | complete message => exact ⟨.complete message, hstands⟩
  | undecodable error => exact absurd rfl hdecoded
  | refused why hwhy =>
      cases why with
      | undecodable => exact absurd rfl hwhy
      | timeout => exact hstands.again hread
      | foreign => exact ⟨.foreign, hstands⟩
      | _ => exact ⟨.refused _ (by decide) (by decide), hstands⟩

variable (sha256 m) in
/-- A session answers every push as the receiver it stands for. -/
theorem Stands.push_agrees (h : Stands startedAtMs deadlineMs s r) (hstarted : startedAtMs ≤ nowMs)
    (hdeadline : nowMs ≤ deadlineMs) (decodedText : String) :
    PushAgrees sha256 m startedAtMs deadlineMs s r decodedText nowMs := by
  cases hdecode : Frame.decodeText m decodedText with
  | error failure => exact h.noise hstarted hdeadline hdecode
  | ok f => exact h.frame hstarted hdeadline hdecode

/-- The pushes as the receiver takes them. -/
def reading (push : String × U64) : String × ℕ := (push.1, push.2.val)

variable (sha256 m) in
/-- A run of a session and that of the receiver. -/
theorem Stands.run (h : Stands startedAtMs deadlineMs s r) {pushes : List (String × U64)}
    (hopen : ∀ p ∈ pushes, startedAtMs ≤ p.2 ∧ p.2 ≤ deadlineMs) :
    List.Forall₂ Reports (Transducer.answers (ScanSession.scan sha256 m) s pushes)
        (Transducer.answers (Receiver.offered (format sha256) (readPiece m)) r
          (pushes.map reading)) ∧
      Stands startedAtMs deadlineMs (Transducer.final (ScanSession.scan sha256 m) s pushes)
        (Transducer.final (Receiver.offered (format sha256) (readPiece m)) r
          (pushes.map reading)) := by
  rw [← Transducer.answers_map, ← Transducer.final_map]
  exact Transducer.simulation (ScanSession.scan sha256 m)
    (fun r push => Receiver.offered (format sha256) (readPiece m) r (reading push))
    (Stands startedAtMs deadlineMs) Reports (fun p => startedAtMs ≤ p.2 ∧ p.2 ≤ deadlineMs)
    (fun s r p hp h => h.push_agrees sha256 m hp.1 hp.2 p.1) hopen h

theorem stands_new (startedAtMs : U64) (timeoutMs : ℕ) : Stands startedAtMs
    (ScanSession.new startedAtMs timeoutMs).deadlineMs (.new startedAtMs timeoutMs) .idle :=
  ⟨rfl, rfl, rfl, .idle⟩

end Refinement

section Transfers

variable {sha256 : List Byte → ProtocolDigest} {m : QrMinicbor}

/-- A message that has been cut into frames. -/
structure Sent (sha256 : List Byte → ProtocolDigest) where
  message : List Byte
  chunkBytes : ℕ
  transferId : Bytes 16
  frames : List String
  fragmented : fragmentQrMessage sha256 message chunkBytes transferId = .ok frames

namespace Sent

variable (own : Sent sha256)

theorem fragmentable : Fragmentable own.message own.chunkBytes := by
  have h := own.fragmented
  rw [fragmentQrMessage] at h
  obtain ⟨_, hmessage, h⟩ := bind_eq_ok.mp h
  obtain ⟨_, hchunk, h⟩ := bind_eq_ok.mp h
  obtain ⟨_, hcount, -⟩ := bind_eq_ok.mp h
  have hsize := ensure_eq_ok.mp hmessage
  exact ⟨hsize.1, hsize.2, ensure_eq_ok.mp hchunk, ensure_eq_ok.mp hcount⟩

theorem frames_eq : own.frames = (List.range (pieceCount own.chunkBytes own.message.length)).map
    fun i => (fragment sha256 own.message own.chunkBytes own.transferId i).text :=
  Except.ok.inj (own.fragmented.symm.trans (fragmentQrMessage_eq own.fragmentable))

variable (m) in
/-- The message as a source of pieces. -/
def source : Source (format sha256) (readPiece m) where
  header := announcement sha256 own.message own.chunkBytes own.transferId
  chunks := pieces own.chunkBytes own.message
  frames i := (fragment sha256 own.message own.chunkBytes own.transferId i).text
  announced := own.fragmentable.announced
  decoded := own.fragmentable.readPiece_text

theorem source_message : (own.source m).message = own.message :=
  flatten_pieces own.fragmentable.chunk.1

theorem isFrame_iff {text : String} : (own.source m).IsFrame text ↔ text ∈ own.frames := by
  have hlength : (own.source m).chunks.length = pieceCount own.chunkBytes own.message.length := by
    simp [source, pieces]
  rw [Source.IsFrame, own.frames_eq, hlength]
  simp only [List.mem_map, List.mem_range, source, eq_comm]

end Sent

variable {sent : List (Sent sha256)} {startedAtMs : U64} {timeoutMs : ℕ}
  {pushes : List (String × U64)}

variable (m) in
def sources (sent : List (Sent sha256)) : Set (Source (format sha256) (readPiece m)) :=
  {source | ∃ own ∈ sent, own.source m = source}

/-- The header of a transfer tells it from the others. -/
theorem sources_header (hids : (sent.map Sent.transferId).Nodup) :
    ∀ source ∈ sources m sent, ∀ other ∈ sources m sent, source.header = other.header →
      source = other := by
  rintro _ ⟨own, hown, rfl⟩ _ ⟨other, hother, rfl⟩ hheader
  have hid : own.transferId = other.transferId := congrArg Transfer.transferId hheader
  rw [List.inj_on_of_nodup_map hids hown hother hid]

theorem readPiece_none {text : String} {failure : QrError}
    (h : Frame.decodeText m text = .error failure) : readPiece m text = none := by
  rw [readPiece, h]
  rfl

theorem offered_reading {push : String × U64} (h : (∃ own ∈ sent, push.1 ∈ own.frames) ∨
    ∃ failure, Frame.decodeText m push.1 = .error failure) :
    Offered (sources m sent) (reading push).1 := by
  rcases h with ⟨own, hown, hframe⟩ | ⟨failure, hdecode⟩
  · exact Or.inl ⟨own.source m, ⟨own, hown, rfl⟩, own.isFrame_iff.mpr hframe⟩
  · exact Or.inr (readPiece_none hdecode)

theorem sorted_readings (hclock : pushes.Pairwise fun p q => p.2 ≤ q.2) :
    (pushes.map reading).Pairwise fun p q => p.2 ≤ q.2 :=
  List.pairwise_map.mpr hclock

theorem forall_readings {P : String × ℕ → Prop} (h : ∀ p ∈ pushes, P (reading p)) :
    ∀ p ∈ pushes.map reading, P p := by
  intro p hp
  obtain ⟨push, hpush, rfl⟩ := List.mem_map.mp hp
  exact h push hpush

theorem Reports.harmless {update : ScanUpdate} {answer : Answer Byte} (h : Reports update answer)
    (hanswer : Harmless (sources m sent) answer) :
    ∃ progress message, update = .ok (progress, message) ∧
      ∀ content, message = some content → ∃ own ∈ sent, content = own.message := by
  cases hanswer with
  | progress received total =>
      cases h
      exact ⟨_, _, rfl, by simp⟩
  | undecodable =>
      cases h with
      | undecodable => exact ⟨_, _, rfl, by simp⟩
      | refused update hread _ => exact absurd rfl hread
  | foreign =>
      cases h with
      | foreign => exact ⟨_, _, rfl, by simp⟩
      | refused update _ hown => exact absurd rfl hown
  | complete hsource =>
      obtain ⟨own, hown, rfl⟩ := hsource
      cases h
      refine ⟨_, _, rfl, ?_⟩
      intro content hcontent
      exact ⟨own, hown, (Option.some.inj hcontent).symm.trans own.source_message⟩

/-- No push ends the scan, and only messages that were sent are returned. -/
theorem scan_harmless (hids : (sent.map Sent.transferId).Nodup)
    (hclock : pushes.Pairwise fun p q => p.2 ≤ q.2)
    (hopen : ∀ p ∈ pushes,
      startedAtMs ≤ p.2 ∧ p.2 ≤ (ScanSession.new startedAtMs timeoutMs).deadlineMs)
    (htexts : ∀ p ∈ pushes, (∃ own ∈ sent, p.1 ∈ own.frames) ∨
      ∃ failure, Frame.decodeText m p.1 = .error failure) :
    ∀ update ∈ Transducer.answers (ScanSession.scan sha256 m) (.new startedAtMs timeoutMs) pushes,
      ∃ progress message, update = .ok (progress, message) ∧
        ∀ content, message = some content → ∃ own ∈ sent, content = own.message := by
  intro update hupdate
  have hreports := ((stands_new startedAtMs timeoutMs).run sha256 m hopen).1
  have hharmless := answers_harmless (sources_header (m := m) hids) .idle (sorted_readings hclock)
    (fun _ _ => Nat.zero_le _) (forall_readings fun p hp => offered_reading (htexts p hp))
  obtain ⟨i, hi, rfl⟩ := List.getElem_of_mem hupdate
  have hlength := hreports.length_eq
  have hreport := (List.forall₂_iff_get.mp hreports).2 i hi (hlength ▸ hi)
  have hanswer := hharmless _ (List.get_mem _ ⟨i, hlength ▸ hi⟩)
  exact hreport.harmless hanswer

variable (own : Sent sha256) {t : ℕ}

/-- The frames that are repeated on the session are repeated on the receiver. -/
theorem repeated_readings (hrepeated : ∀ x, t ≤ x → x + 30000 ≤ t + 120000 → ∀ frame ∈ own.frames,
    ∃ p ∈ pushes, p.1 = frame ∧ x ≤ p.2.val ∧ p.2.val ≤ x + 30000) :
    Repeated (own.source m) (pushes.map reading) t (t + 2 * (format sha256).window + 1) := by
  intro x hx hlimit i hi
  have hwindow : (format sha256).window = 30000 := rfl
  have hframe : (own.source m).frames i ∈ own.frames := own.isFrame_iff.mp ⟨i, hi, rfl⟩
  obtain ⟨p, hp, htext, hafter, hbound⟩ := hrepeated x hx (by omega) _ hframe
  exact ⟨reading p, List.mem_map.mpr ⟨p, hp, rfl⟩, htext, hafter, by rw [hwindow]; exact hbound⟩

variable {own}

/-- A message whose frames are repeated is returned, whatever was pushed before. -/
theorem scan_returns (hids : (sent.map Sent.transferId).Nodup)
    (hclock : pushes.Pairwise fun p q => p.2 ≤ q.2)
    (hopen : ∀ p ∈ pushes,
      startedAtMs ≤ p.2 ∧ p.2 ≤ (ScanSession.new startedAtMs timeoutMs).deadlineMs)
    (htexts : ∀ p ∈ pushes, (∃ own ∈ sent, p.1 ∈ own.frames) ∨
      ∃ failure, Frame.decodeText m p.1 = .error failure)
    (hown : own ∈ sent) (honly : ∀ p ∈ pushes, t ≤ p.2.val → p.1 ∈ own.frames ∨
      ∃ failure, Frame.decodeText m p.1 = .error failure)
    (hrepeated : ∀ x, t ≤ x → x + 30000 ≤ t + 120000 → ∀ frame ∈ own.frames,
      ∃ p ∈ pushes, p.1 = frame ∧ x ≤ p.2.val ∧ p.2.val ≤ x + 30000) :
    ∃ before push after, pushes = before ++ push :: after ∧ t ≤ push.2.val ∧
      push.2.val ≤ t + 120000 ∧
      ((Transducer.final (ScanSession.scan sha256 m) (.new startedAtMs timeoutMs) before).push
        sha256 m push.1 push.2).1 = .ok (.waiting, some own.message) := by
  have honlyReadings : ∀ p ∈ pushes.map reading, t ≤ p.2 →
      (own.source m).IsFrame p.1 ∨ readPiece m p.1 = none := by
    apply forall_readings
    intro p hp hlater
    rcases honly p hp hlater with hframe | ⟨failure, hdecode⟩
    · exact Or.inl (own.isFrame_iff.mpr hframe)
    · exact Or.inr (readPiece_none hdecode)
  obtain ⟨before', push', after', hsplit, hafter, hbound, hcomplete⟩ :=
    offers_recover (sources_header (m := m) hids) ⟨own, hown, rfl⟩ (sorted_readings hclock)
      (forall_readings fun p hp => offered_reading (htexts p hp)) honlyReadings
      (repeated_readings own hrepeated)
  obtain ⟨before, rest, rfl, rfl, hrest⟩ := List.map_eq_append_iff.mp hsplit
  obtain ⟨push, after, rfl, rfl, -⟩ := List.map_eq_cons_iff.mp hrest
  have hwindow : (format sha256).window = 30000 := rfl
  refine ⟨before, push, after, rfl, hafter, ?_, ?_⟩
  · have hearly : push.2.val ≤ t + 3 * (format sha256).window + 1 := hbound
    omega
  · have hstands := ((stands_new startedAtMs timeoutMs).run sha256 m
      fun p hp => hopen p (List.mem_append_left _ hp)).2
    obtain ⟨hstarted, hdeadline⟩ := hopen push (by simp)
    have hreports := (hstands.push_agrees sha256 m hstarted hdeadline push.1).1
    have hanswer := hreports.complete_eq hcomplete
    rw [hanswer, own.source_message]

/-- A session recovers from earlier transfers: no push ends it, it returns only messages that were
sent, and a message whose frames are repeated is returned, whatever was pushed before. -/
theorem scan_recovers (sha256 : List Byte → ProtocolDigest) (m : QrMinicbor) (startedAtMs : U64)
    (timeoutMs : ℕ) {sent : List (Sent sha256)} (hids : (sent.map Sent.transferId).Nodup)
    {pushes : List (String × U64)} (hclock : pushes.Pairwise fun p q => p.2 ≤ q.2)
    (hopen : ∀ p ∈ pushes,
      startedAtMs ≤ p.2 ∧ p.2 ≤ (ScanSession.new startedAtMs timeoutMs).deadlineMs)
    (htexts : ∀ p ∈ pushes, (∃ own ∈ sent, p.1 ∈ own.frames) ∨
      ∃ failure, Frame.decodeText m p.1 = .error failure) :
    (∀ update ∈ Transducer.answers (ScanSession.scan sha256 m) (.new startedAtMs timeoutMs) pushes,
      ∃ progress message, update = .ok (progress, message) ∧
        ∀ content, message = some content → ∃ own ∈ sent, content = own.message) ∧
      ∀ own ∈ sent, ∀ t : ℕ,
        (∀ p ∈ pushes, t ≤ p.2.val → p.1 ∈ own.frames ∨
          ∃ failure, Frame.decodeText m p.1 = .error failure) →
        (∀ x, t ≤ x → x + 30000 ≤ t + 120000 → ∀ frame ∈ own.frames,
          ∃ p ∈ pushes, p.1 = frame ∧ x ≤ p.2.val ∧ p.2.val ≤ x + 30000) →
        ∃ before push after, pushes = before ++ push :: after ∧ t ≤ push.2.val ∧
          push.2.val ≤ t + 120000 ∧
          ((Transducer.final (ScanSession.scan sha256 m) (.new startedAtMs timeoutMs) before).push
            sha256 m push.1 push.2).1 = .ok (.waiting, some own.message) := by
  constructor
  · exact scan_harmless hids hclock hopen htexts
  · intro own hown t honly hrepeated
    exact scan_returns hids hclock hopen htexts hown honly hrepeated

section Sample

def sampleSha256 : List Byte → ProtocolDigest := fun _ => Bytes.replicate 32 1

def sampleSent (message : List Byte) (transferId : Bytes 16) (h : Fragmentable message 2) :
    Sent sampleSha256 where
  message := message
  chunkBytes := 2
  transferId := transferId
  frames := (List.range (pieceCount 2 message.length)).map
    fun i => (fragment sampleSha256 message 2 transferId i).text
  fragmented := fragmentQrMessage_eq h

def sampleOwn : Sent sampleSha256 :=
  sampleSent [1, 2, 3] (Bytes.replicate 16 7) ⟨by decide, by decide, by decide, by decide⟩

def sampleOther : Sent sampleSha256 :=
  sampleSent [4, 5, 6] (Bytes.replicate 16 8) ⟨by decide, by decide, by decide, by decide⟩

def samplePushes : List (String × U64) :=
  (sampleOther.frames.head?.getD "", 0) ::
    [1, 30001, 60001, 90001, 120001].flatMap fun now =>
      sampleOwn.frames.map fun frame => (frame, now)

/-- The display is looped after a frame of another transfer. -/
theorem scan_recovers_sample : ∃ before push after, samplePushes = before ++ push :: after ∧
    1 ≤ push.2.val ∧ push.2.val ≤ 1 + 120000 ∧
    ((Transducer.final (ScanSession.scan sampleSha256 QrMinicbor.definite) (.new 0 300000)
      before).push sampleSha256 QrMinicbor.definite push.1 push.2).1 = .ok (.waiting, some [1, 2, 3]) := by
  have hids : ([sampleOther, sampleOwn].map Sent.transferId).Nodup := by decide
  have hclock : samplePushes.Pairwise fun p q => p.2 ≤ q.2 := by decide +kernel
  have hopen : ∀ p ∈ samplePushes,
      0 ≤ p.2 ∧ p.2 ≤ (ScanSession.new 0 300000).deadlineMs := by decide +kernel
  have hframes : ∀ p ∈ samplePushes,
      p.2 = 0 ∧ p.1 ∈ sampleOther.frames ∨ p.1 ∈ sampleOwn.frames := by
    intro p hp
    rcases List.mem_cons.mp hp with rfl | hp
    · exact Or.inl ⟨rfl, List.mem_cons_self⟩
    · obtain ⟨now, -, hnow⟩ := List.mem_flatMap.mp hp
      obtain ⟨frame, hframe, rfl⟩ := List.mem_map.mp hnow
      exact Or.inr hframe
  have hwindow (x : ℕ) (hx : 1 ≤ x) (hlimit : x + 30000 ≤ 1 + 120000) :
      ∃ now ∈ ([1, 30001, 60001, 90001, 120001] : List U64), x ≤ now.val ∧ now.val ≤ x + 30000 := by
    by_cases hfirst : x ≤ 1
    · exact ⟨1, by simp, by simpa using hfirst, by simp⟩
    · by_cases hsecond : x ≤ 30001
      · exact ⟨30001, by simp, hsecond, show 30001 ≤ x + 30000 by omega⟩
      · by_cases hthird : x ≤ 60001
        · exact ⟨60001, by simp, hthird, show 60001 ≤ x + 30000 by omega⟩
        · exact ⟨90001, by simp, show x ≤ 90001 by omega, show 90001 ≤ x + 30000 by omega⟩
  have hrecovers := (scan_recovers sampleSha256 QrMinicbor.definite 0 300000 hids hclock hopen
    fun p hp => Or.inl ?_).2 sampleOwn (by simp) 1 ?_ ?_
  · exact hrecovers
  · rcases hframes p hp with ⟨-, hframe⟩ | hframe
    · exact ⟨sampleOther, by simp, hframe⟩
    · exact ⟨sampleOwn, by simp, hframe⟩
  · intro p hp hlater
    rcases hframes p hp with ⟨hzero, -⟩ | hframe
    · rw [hzero] at hlater
      exact absurd hlater (by decide)
    · exact Or.inl hframe
  · intro x hx hlimit frame hframe
    obtain ⟨now, hnow, hafter, hbound⟩ := hwindow x hx hlimit
    refine ⟨(frame, now), ?_, rfl, hafter, hbound⟩
    apply List.mem_cons_of_mem
    exact List.mem_flatMap.mpr ⟨now, hnow, List.mem_map.mpr ⟨frame, hframe, rfl⟩⟩

end Sample

end Transfers

end AgePluginPhone.Desktop.QrScanner
