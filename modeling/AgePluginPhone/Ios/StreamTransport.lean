import AgePluginPhone.Core.StreamMessage
import AgePluginPhone.Library.Fallible
import AgePluginPhone.Library.Transducer

/-!
# The stream transport on iOS

The Swift codec, the session around it, and the loop that collects the parts in which a connection
delivers its bytes.
-/

namespace AgePluginPhone.Ios.Stream

open Library Cbor AgePluginPhone.Core

inductive StreamTransportError
  | malformed
  | timeout
  | disconnected
  | unavailable
  deriving DecidableEq

inductive StreamPurpose
  | pairing
  | unwrap
  deriving DecidableEq

def StreamPurpose.rawValue : StreamPurpose → Byte
  | .pairing => 1
  | .unwrap => 2

/-- `header[i]`. -/
def byteAt (header : List Byte) (i : ℕ) : Byte := header.getD i 0

/-- `Data(header[8..<24])` of a header, which must have 16 bytes. -/
def sessionOf (header : List Byte) : Except StreamTransportError (Bytes 16) :=
  if h : ((header.drop 8).take 16).length = 16 then .ok ⟨(header.drop 8).take 16, h⟩
  else .error .malformed

/-- `StreamTransportCodec.decodeHeader`. -/
def decodeHeader (header : List Byte) (purpose : StreamPurpose) (direction : Byte) :
    Except StreamTransportError (Bytes 16 × ℕ) := do
  ensure (header.length = 28 ∧ header.take 4 = StreamMessage.magic ∧ byteAt header 4 = 0 ∧
    byteAt header 5 = 1 ∧ byteAt header 6 = purpose.rawValue ∧ byteAt header 7 = direction) .malformed
  let length := (((byteAt header 24).val <<< 24 ||| (byteAt header 25).val <<< 16) |||
    (byteAt header 26).val <<< 8) ||| (byteAt header 27).val
  let session ← sessionOf header
  ensure (length ≤ StreamMessage.maxMessageBytes) .malformed
  return (session, length)

/-- `UInt8((length >> shift) & 0xff)`. -/
def lengthByte (length shift : ℕ) : Byte := byte (length >>> shift &&& 0xff)

/-- `StreamTransportCodec.encode`. -/
def encode (purpose : StreamPurpose) (direction : Byte) (sessionId : Bytes 16) (body : List Byte) :
    Except StreamTransportError (List Byte) := do
  ensure (body.length ≤ StreamMessage.maxMessageBytes) .malformed
  let length := body.length
  return StreamMessage.magic ++ ([0, 1, purpose.rawValue, direction] ++ (sessionId.1 ++
    ([lengthByte length 24, lengthByte length 16, lengthByte length 8, lengthByte length 0] ++ body)))

/-- A connection: the parts its bytes arrive in, whether the peer closes it after them, and
whether it says so with the last part. -/
structure Connection where
  parts : List (List Byte)
  closed : Bool
  eager : Bool

/-- The parts left when at most so many bytes of the first are taken. -/
def remaining (missing : ℕ) (part : List Byte) (parts : List (List Byte)) : List (List Byte) :=
  if part.length ≤ missing then parts else part.drop missing :: parts

/-- The loop of `receiveExactly`: what it has, from the parts to come to those left. A connection
that stays open and silent ends in the timeout of the session. -/
def collect (count : ℕ) (closed eager : Bool) :
    List Byte → List (List Byte) → Except StreamTransportError (List Byte × Bool × List (List Byte))
  | _, [] => .error (if closed then .disconnected else .timeout)
  | accumulated, part :: parts =>
      let missing := count - accumulated.length
      let accumulated' := accumulated ++ part.take missing
      let left := remaining missing part parts
      let complete := decide (left = []) && closed && eager
      if accumulated'.length = count then .ok (accumulated', complete, left)
      else if complete then .error .disconnected
      else collect count closed eager accumulated' parts

/-- `receiveExactly`: the bytes, whether the peer closed with them, and the connection after. -/
def receiveExactly (count : ℕ) (c : Connection) :
    Except StreamTransportError ((List Byte × Bool) × Connection) :=
  if count = 0 then .ok (([], false), c)
  else
    match collect count c.closed c.eager [] c.parts with
    | .ok (bytes, complete, left) => .ok ((bytes, complete), { c with parts := left })
    | .error error => .error error

structure PhoneStreamSession where
  purpose : StreamPurpose
  sessionId : Option (Bytes 16)
  terminal : Bool
  requestDelivered : Bool

namespace PhoneStreamSession

def new (purpose : StreamPurpose) : PhoneStreamSession := ⟨purpose, none, false, false⟩

def close (s : PhoneStreamSession) : PhoneStreamSession :=
  if s.terminal then s else { s with terminal := true, sessionId := none }

/-- The inner `finish` of `start`, on a failure. -/
def fail (s : PhoneStreamSession) (error : StreamTransportError) :
    Option (Except StreamTransportError (List Byte)) × PhoneStreamSession :=
  if s.requestDelivered ∨ s.terminal then (none, s)
  else (some (.error error), { s with requestDelivered := true, terminal := true, sessionId := none })

/-- The inner `finish` of `start`, on success; a peer that closed ends the session after it. -/
def deliver (s : PhoneStreamSession) (body : List Byte) (peerClosed : Bool) :
    Option (Except StreamTransportError (List Byte)) × PhoneStreamSession :=
  if s.requestDelivered ∨ s.terminal then (none, s)
  else if peerClosed then
    (some (.ok body), { s with requestDelivered := true, terminal := true, sessionId := none })
  else (some (.ok body), { s with requestDelivered := true })

/-- `start` on a connection that becomes ready, with what it hands to its completion. -/
def start (s : PhoneStreamSession) (c : Connection) :
    Option (Except StreamTransportError (List Byte)) × PhoneStreamSession :=
  match receiveExactly 28 c with
  | .error error => s.fail error
  | .ok ((header, peerClosed), c) =>
      match decodeHeader header s.purpose 1 with
      | .error error => s.fail error
      | .ok (id, length) =>
          if s.terminal then (none, s)
          else
            let s := { s with sessionId := some id }
            if peerClosed ∧ 0 < length then s.fail .disconnected
            else
              match receiveExactly length c with
              | .error error => s.fail error
              | .ok ((body, bodyPeerClosed), _) => s.deliver body (peerClosed || bodyPeerClosed)

/-- `sendResponse`, with the bytes it sends. -/
def sendResponse (s : PhoneStreamSession) (body : List Byte) :
    Except StreamTransportError (List Byte) × PhoneStreamSession :=
  match if s.terminal then none else s.sessionId with
  | none => (.error .disconnected, s.close)
  | some id => (encode s.purpose 2 id body, s.close)

inductive Call
  | start (c : Connection)
  | send (body : List Byte)
  | close

def respond (s : PhoneStreamSession) :
    Call → Option (Except StreamTransportError (List Byte)) × PhoneStreamSession
  | .start c => s.start c
  | .send body =>
      let outcome := s.sendResponse body
      (some outcome.1, outcome.2)
  | .close => (none, s.close)

end PhoneStreamSession

section Correctness

variable {purpose : StreamPurpose} {direction : Byte} {sessionId : Bytes 16} {body : List Byte}

private theorem lengthByte_eq (length shift : ℕ) :
    lengthByte length shift = byte (length / 2 ^ shift) := by
  have hmask : length >>> shift &&& 0xff = length / 2 ^ shift % 2 ^ 8 := by
    rw [Nat.shiftRight_eq_div_pow]
    exact Nat.and_two_pow_sub_one_eq_mod _ 8
  rw [lengthByte, hmask]
  exact Fin.ext (Nat.mod_mod _ _)

theorem encode_eq_ok (h : body.length ≤ StreamMessage.maxMessageBytes) :
    encode purpose direction sessionId body =
      .ok (StreamMessage.message purpose.rawValue direction sessionId body) := by
  rw [encode, ensure_true _ h]
  simp only [ok_bind, pure_eq_ok, StreamMessage.message, StreamMessage.header, List.append_assoc,
    lengthByte_eq]
  rfl

private theorem header_numbers (a b : Byte) : a = 0 ∧ b = 1 ↔ [a, b] = [0, 1] := by simp

private theorem sessionOf_eq_ok {header : List Byte} :
    sessionOf header = .ok sessionId ↔ (header.drop 8).take 16 = sessionId.1 := by
  rw [sessionOf]
  split_ifs with h
  · rw [Except.ok.injEq, Subtype.ext_iff]
  · simp only [false_iff]
    intro heq
    exact h (heq ▸ sessionId.2)

/-- The guard on a header, field by field. -/
private theorem header_guard {header : List Byte} : (header.length = 28 ∧
    header.take 4 = StreamMessage.magic ∧ byteAt header 4 = 0 ∧ byteAt header 5 = 1 ∧
    byteAt header 6 = purpose.rawValue ∧ byteAt header 7 = direction) ↔
      header.length = 28 ∧ header.take 4 = StreamMessage.magic ∧ (header.drop 4).take 2 = [0, 1] ∧
        (header.drop 6).take 1 = [purpose.rawValue] ∧ (header.drop 7).take 1 = [direction] := by
  refine and_congr_right fun hlength => ?_
  rw [StreamMessage.take_two hlength, StreamMessage.take_one hlength (by decide),
    StreamMessage.take_one hlength (by decide), ← header_numbers]
  simp only [byteAt, List.cons.injEq, and_true, and_assoc]

/-- A header is read exactly when it is one of this purpose and direction. -/
theorem decodeHeader_eq_ok {header : List Byte} {length : ℕ} :
    decodeHeader header purpose direction = .ok (sessionId, length) ↔
      length ≤ StreamMessage.maxMessageBytes ∧
        header = StreamMessage.header purpose.rawValue direction sessionId length := by
  simp only [decodeHeader, bind_eq_ok, ensure_eq_ok, exists_const, pure_eq_ok, Except.ok.injEq,
    Prod.mk.injEq, header_guard, sessionOf_eq_ok]
  constructor
  · intro hparts
    obtain ⟨⟨hlength, hmagic, hversion, hpurpose, hdirection⟩, _, hsession, hbound, rfl, rfl⟩ := hparts
    simp only [byteAt, StreamMessage.length_value hlength] at hbound ⊢
    exact ⟨hbound, StreamMessage.eq_header hlength hmagic hversion hpurpose hdirection hsession⟩
  · intro hparts
    obtain ⟨hbound, rfl⟩ := hparts
    have hlength := StreamMessage.header_length purpose.rawValue direction sessionId length
    have hvalue := StreamMessage.value_header purpose.rawValue direction sessionId hbound
    obtain ⟨hmagic, hversion, hpurpose, hdirection, hsession⟩ :=
      StreamMessage.fields_header purpose.rawValue direction sessionId length
    simp only [byteAt, StreamMessage.length_value hlength, hvalue]
    exact ⟨⟨hlength, hmagic, hversion, hpurpose, hdirection⟩, sessionId, hsession, hbound, rfl, trivial⟩

section Collect

variable {count : ℕ} (closed eager : Bool)

/-- A part that completes the bytes leaves what follows them. -/
private theorem remaining_flatten (part : List Byte) (parts : List (List Byte)) {missing : ℕ}
    (h : missing ≤ part.length) :
    (remaining missing part parts).flatten = (part ++ parts.flatten).drop missing := by
  rw [remaining, List.drop_append_of_le_length h]
  split_ifs with hle
  · rw [List.drop_eq_nil_of_le hle, List.nil_append]
  · rfl

/-- However the bytes arrive, the first of them are collected. -/
theorem collect_enough (accumulated : List Byte) {parts : List (List Byte)}
    (hmissing : accumulated.length < count)
    (h : count ≤ accumulated.length + parts.flatten.length) :
    ∃ complete left, collect count closed eager accumulated parts = .ok
        (accumulated ++ parts.flatten.take (count - accumulated.length), complete, left) ∧
      left.flatten = parts.flatten.drop (count - accumulated.length) ∧
      (complete = true → left = [] ∧ closed = true) := by
  induction parts generalizing accumulated with
  | nil =>
      rw [List.flatten_nil, List.length_nil] at h
      omega
  | cons part parts ih =>
      rw [List.flatten_cons, List.length_append] at h
      rw [List.flatten_cons]
      by_cases hpart : count - accumulated.length ≤ part.length
      · have hfull : (accumulated ++ part.take (count - accumulated.length)).length = count := by
          rw [List.length_append, List.length_take_of_le hpart]
          omega
        refine ⟨decide (remaining (count - accumulated.length) part parts = []) && closed && eager,
          remaining (count - accumulated.length) part parts, ?_, remaining_flatten part parts hpart, ?_⟩
        · rw [collect, List.take_append_of_le_length hpart]
          simp only [hfull, if_true]
        · simp only [Bool.and_eq_true, decide_eq_true_eq, and_imp]
          exact fun hleft hclosed _ => ⟨hleft, hclosed⟩
      · have hall : part.take (count - accumulated.length) = part :=
          List.take_of_length_le (by omega)
        have hshort : ¬ (accumulated ++ part).length = count := by
          rw [List.length_append]
          omega
        have hopen : ¬ parts = [] := by
          intro hparts
          rw [hparts, List.flatten_nil, List.length_nil] at h
          omega
        have hrest : remaining (count - accumulated.length) part parts = parts :=
          if_pos (by omega)
        obtain ⟨complete, left, hcollect, hleft, hcomplete⟩ :=
          ih (accumulated ++ part) (by rw [List.length_append]; omega)
            (by rw [List.length_append]; omega)
        have hcount : count - (accumulated ++ part).length =
            count - accumulated.length - part.length := by
          rw [List.length_append]
          omega
        refine ⟨complete, left, ?_, ?_, hcomplete⟩
        · simp only [collect, hall, hshort, if_false, hrest, hopen, decide_false,
            Bool.false_and, Bool.false_eq_true]
          rw [hcollect, hcount, List.take_append, hall, List.append_assoc]
        · have hgone : part.drop (count - accumulated.length) = [] :=
            List.drop_eq_nil_of_le (by omega)
          rw [hleft, hcount, List.drop_append, hgone, List.nil_append]

/-- Too few bytes are not collected. -/
theorem collect_short (accumulated : List Byte) {parts : List (List Byte)}
    (h : accumulated.length + parts.flatten.length < count) :
    ∃ error, collect count closed eager accumulated parts = .error error := by
  induction parts generalizing accumulated with
  | nil => exact ⟨_, rfl⟩
  | cons part parts ih =>
      rw [List.flatten_cons, List.length_append] at h
      have hall : part.take (count - accumulated.length) = part :=
        List.take_of_length_le (by omega)
      have hshort : ¬ (accumulated ++ part).length = count := by
        rw [List.length_append]
        omega
      have hrest : remaining (count - accumulated.length) part parts = parts :=
        if_pos (by omega)
      simp only [collect, hall, hshort, if_false, hrest]
      split_ifs with hcomplete
      · exact ⟨_, rfl⟩
      · exact ih (accumulated ++ part) (by rw [List.length_append]; omega)

variable {c : Connection}

theorem receiveExactly_enough (h : count ≤ c.parts.flatten.length) :
    ∃ complete left, receiveExactly count c =
        .ok ((c.parts.flatten.take count, complete), { c with parts := left }) ∧
      left.flatten = c.parts.flatten.drop count ∧
      (complete = true → left = [] ∧ c.closed = true) := by
  by_cases hcount : count = 0
  · subst hcount
    exact ⟨false, c.parts, rfl, rfl, by simp⟩
  · obtain ⟨complete, left, hcollect, hleft, hcomplete⟩ :=
      collect_enough c.closed c.eager [] (Nat.pos_of_ne_zero hcount) (by simpa using h)
    refine ⟨complete, left, ?_, hleft, hcomplete⟩
    simp only [receiveExactly, hcount, if_false, hcollect]
    rfl

theorem receiveExactly_short (h : c.parts.flatten.length < count) :
    ∃ error, receiveExactly count c = .error error := by
  have hcount : ¬ count = 0 := by omega
  obtain ⟨error, hcollect⟩ : ∃ error, collect count c.closed c.eager [] c.parts = .error error :=
    collect_short c.closed c.eager [] (by simpa using h)
  exact ⟨error, by simp only [receiveExactly, hcount, if_false, hcollect]⟩

end Collect

namespace PhoneStreamSession

variable {s : PhoneStreamSession} {c : Connection} {rest : List Byte}

/-- A session that has ended. -/
def ended (purpose : StreamPurpose) : PhoneStreamSession := ⟨purpose, none, true, true⟩

/-- The request of a whole message is delivered, in whatever parts it arrives; the session keeps
its identifier unless the peer has closed the connection. -/
theorem start_message (hbody : body.length ≤ StreamMessage.maxMessageBytes)
    (h : c.parts.flatten = StreamMessage.message purpose.rawValue 1 sessionId body ++ rest) :
    ((new purpose).start c).1 = some (.ok body) ∧
      (((new purpose).start c).2 = ⟨purpose, some sessionId, false, true⟩ ∨
        c.closed = true ∧ ((new purpose).start c).2 = ended purpose) := by
  have hlength : (StreamMessage.header purpose.rawValue 1 sessionId body.length).length = 28 :=
    StreamMessage.header_length purpose.rawValue 1 sessionId body.length
  rw [StreamMessage.message, List.append_assoc] at h
  obtain ⟨headerClosed, left, hheader, hleft, hclosed⟩ :
      ∃ complete left, receiveExactly 28 c = _ ∧ _ ∧ _ := receiveExactly_enough (by rw [h, List.length_append, hlength]; exact Nat.le_add_right ..)
  rw [h, List.take_left' hlength] at hheader
  rw [h, List.drop_left' hlength] at hleft
  have hdecode : decodeHeader (StreamMessage.header purpose.rawValue 1 sessionId body.length) purpose 1 =
      .ok (sessionId, body.length) := decodeHeader_eq_ok.mpr ⟨hbody, rfl⟩
  have hmore : ¬ (headerClosed = true ∧ 0 < body.length) := by
    intro hboth
    obtain ⟨hcomplete, hpos⟩ := hboth
    rw [(hclosed hcomplete).1, List.flatten_nil] at hleft
    rw [(List.append_eq_nil_iff.mp hleft.symm).1] at hpos
    exact absurd hpos (by simp)
  obtain ⟨bodyClosed, left', hreceive, -, hclosed'⟩ :=
    receiveExactly_enough (c := { c with parts := left })
      (show body.length ≤ left.flatten.length by simp [hleft])
  have htake : left.flatten.take body.length = body := by rw [hleft, List.take_left]
  simp only [htake] at hreceive
  simp only [start, hheader, new, hdecode, Bool.false_eq_true, if_false, hmore, hreceive, deliver,
    or_self]
  cases hpeer : headerClosed || bodyClosed with
  | false => exact ⟨rfl, Or.inl rfl⟩
  | true =>
      refine ⟨rfl, Or.inr ⟨?_, rfl⟩⟩
      cases Bool.or_eq_true_iff.mp hpeer with
      | inl hheaderClosed => exact (hclosed hheaderClosed).2
      | inr hbodyClosed => exact (hclosed' hbodyClosed).2

/-- A session that starts ends in failure, or has read a whole message. -/
theorem start_cases (purpose : StreamPurpose) (c : Connection) :
    (∃ error, (new purpose).start c = (some (.error error), ended purpose)) ∨
      ∃ sessionId body rest, body.length ≤ StreamMessage.maxMessageBytes ∧
        c.parts.flatten = StreamMessage.message purpose.rawValue 1 sessionId body ++ rest := by
  by_cases hheader : c.parts.flatten.length < 28
  · obtain ⟨error, herror⟩ := receiveExactly_short hheader
    exact Or.inl ⟨error, by simp [start, herror, fail, new, ended]⟩
  obtain ⟨headerClosed, left, hreceive, hleft, -⟩ := receiveExactly_enough (not_lt.mp hheader)
  cases hdecode : decodeHeader (c.parts.flatten.take 28) purpose 1 with
  | error error => exact Or.inl ⟨error, by simp [start, hreceive, hdecode, fail, new, ended]⟩
  | ok fields =>
      obtain ⟨sessionId, length⟩ := fields
      by_cases hearly : headerClosed = true ∧ 0 < length
      · exact Or.inl ⟨.disconnected, by simp [start, hreceive, hdecode, hearly, fail, new, ended]⟩
      by_cases hbody : left.flatten.length < length
      · obtain ⟨error, herror⟩ :=
          receiveExactly_short (c := { c with parts := left }) hbody
        refine Or.inl ⟨error, ?_⟩
        simp only [start, hreceive, new, hdecode, Bool.false_eq_true, if_false, hearly, herror]
        rfl
      · obtain ⟨hbound, htake⟩ := decodeHeader_eq_ok.mp hdecode
        have hlength : (left.flatten.take length).length = length :=
          List.length_take_of_le (not_lt.mp hbody)
        refine Or.inr ⟨sessionId, left.flatten.take length, left.flatten.drop length, ?_, ?_⟩
        · rw [hlength]
          exact hbound
        · rw [StreamMessage.message, hlength, ← htake, List.append_assoc, List.take_append_drop,
            hleft, List.take_append_drop]

/-- A broken request is refused, and the session has ended. -/
theorem start_broken
    (hbroken : StreamMessage.Broken purpose.rawValue 1 none c.parts.flatten) :
    ∃ error, (new purpose).start c = (some (.error error), ended purpose) := by
  cases start_cases purpose c with
  | inl herror => exact herror
  | inr hwhole =>
      obtain ⟨sessionId, body, rest, hbody, hflatten⟩ := hwhole
      rw [hflatten] at hbroken
      exact absurd hbroken (StreamMessage.not_broken hbody (by simp))

/-- The response of a session that has its identifier is a message of it. -/
theorem sendResponse_eq (hopen : s.terminal = false) (hid : s.sessionId = some sessionId)
    (hbody : body.length ≤ StreamMessage.maxMessageBytes) : (s.sendResponse body).1 =
      .ok (StreamMessage.message s.purpose.rawValue 2 sessionId body) := by
  simp [sendResponse, hopen, hid, encode_eq_ok hbody]

/-- A session that has ended answers nothing more. -/
theorem ended_answers (hended : s.terminal = true) (later : List Call) :
    ∀ x ∈ Transducer.answers respond s later, ∀ body, x ≠ some (.ok body) := by
  induction later generalizing s with
  | nil => simp [Transducer.answers]
  | cons call later ih =>
      have hclose : s.close = s := if_pos hended
      cases call with
      | close =>
          rw [Transducer.answers, respond, hclose]
          exact List.forall_mem_cons.mpr ⟨by simp, ih hended⟩
      | send response =>
          have hsend : s.sendResponse response = (.error .disconnected, s) := by
            simp [sendResponse, hended, hclose]
          rw [Transducer.answers, respond, hsend]
          exact List.forall_mem_cons.mpr ⟨by simp, ih hended⟩
      | start c =>
          have hstart : s.start c = (none, s) := by
            have hfail (error : StreamTransportError) : s.fail error = (none, s) :=
              if_pos (Or.inr hended)
            rw [start]
            split
            · exact hfail _
            · split
              · exact hfail _
              · exact if_pos hended
          rw [Transducer.answers, respond, hstart]
          exact List.forall_mem_cons.mpr ⟨by simp, ih hended⟩

end PhoneStreamSession

end Correctness

end AgePluginPhone.Ios.Stream
