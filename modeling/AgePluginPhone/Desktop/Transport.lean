import AgePluginPhone.Core.StreamMessage
import AgePluginPhone.Library.Fallible
import AgePluginPhone.Library.Transducer

/-!
# The stream transport of the desktop

One request and one response over a stream that writes, flushes and then yields bytes until it
ends or fails.
-/

namespace AgePluginPhone.Desktop.Transport

open Library Cbor AgePluginPhone.Core

inductive SessionPurpose
  | pairing
  | unwrap
  deriving DecidableEq

def SessionPurpose.code : SessionPurpose → Byte
  | .pairing => 1
  | .unwrap => 2

inductive Direction
  | desktopRequest
  | phoneResponse
  deriving DecidableEq

def Direction.code : Direction → Byte
  | .desktopRequest => 1
  | .phoneResponse => 2

structure TransportLimits where
  maxMessageBytes : ℕ

def TransportLimits.default : TransportLimits := ⟨StreamMessage.maxMessageBytes⟩

inductive TransportError
  | sessionClosed
  | messageTooLarge
  | io
  | invalidFrame
  deriving DecidableEq

/-- What a stream does: whether it takes the bytes, whether it flushes them, and what it yields. -/
structure Stream where
  writes : Bool
  flushes : Bool
  incoming : List Byte

/-- `read_exact`, from the bytes to come to those read and the rest. -/
def readExact (count : ℕ) (incoming : List Byte) : Except TransportError (List Byte × List Byte) := do
  ensure (count ≤ incoming.length) .io
  return (incoming.take count, incoming.drop count)

variable (purpose : SessionPurpose) (direction : Direction) (sessionId : Bytes 16)
  (limits : TransportLimits)

/-- `write_message`, with the bytes it writes. -/
def writeMessage (writes : Bool) (message : List Byte) : Except TransportError (List Byte) := do
  ensure (message.length ≤ limits.maxMessageBytes) .messageTooLarge
  ensure (message.length < 4294967296) .messageTooLarge
  let header := StreamMessage.magic ++ (bigEndian 2 1 ++ ([purpose.code, direction.code] ++
    (sessionId.1 ++ bigEndian 4 message.length)))
  ensure (writes = true) .io
  return header ++ message

def readMessage (incoming : List Byte) : Except TransportError (List Byte) := do
  let (header, rest) ← readExact StreamMessage.headerLen incoming
  ensure (header.take 4 = StreamMessage.magic ∧ (header.drop 4).take 2 = bigEndian 2 1 ∧
    (header.drop 6).take 1 = [purpose.code] ∧ (header.drop 7).take 1 = [direction.code] ∧
    (header.drop 8).take 16 = sessionId.1) .invalidFrame
  let length := bigEndianValue (header.drop 24)
  ensure (length ≤ limits.maxMessageBytes) .messageTooLarge
  let (message, _) ← readExact length rest
  return message

structure DesktopStreamSession where
  limits : TransportLimits
  sessionId : Bytes 16
  closed : Bool

/-- `new`, with the session identifier it draws. -/
def DesktopStreamSession.new : Except TransportError DesktopStreamSession := do
  ensure (limits.maxMessageBytes ≠ 0 ∧ limits.maxMessageBytes ≤ 4294967295) .messageTooLarge
  return ⟨limits, sessionId, false⟩

namespace DesktopStreamSession

def exchange (s : DesktopStreamSession) (purpose : SessionPurpose) (request : List Byte)
    (stream : Stream) : Except TransportError (List Byte) × DesktopStreamSession :=
  if s.closed then (.error .sessionClosed, s)
  else
    (do let _ ← writeMessage purpose .desktopRequest s.sessionId s.limits stream.writes request
        ensure (stream.flushes = true) .io
        readMessage purpose .phoneResponse s.sessionId s.limits stream.incoming,
      { s with closed := true })

def cancel (s : DesktopStreamSession) : DesktopStreamSession := { s with closed := true }

inductive Call
  | exchange (purpose : SessionPurpose) (request : List Byte) (stream : Stream)
  | cancel

/-- What a call returns; `cancel` returns nothing. -/
def respond (s : DesktopStreamSession) :
    Call → Option (Except TransportError (List Byte)) × DesktopStreamSession
  | .exchange purpose request stream =>
      let outcome := s.exchange purpose request stream
      (some outcome.1, outcome.2)
  | .cancel => (none, s.cancel)

end DesktopStreamSession

section Correctness

variable {purpose direction sessionId limits} {message incoming : List Byte}

private theorem bytes_eq (message : List Byte) : StreamMessage.magic ++ (bigEndian 2 1 ++
    ([purpose.code, direction.code] ++ (sessionId.1 ++ bigEndian 4 message.length))) ++ message =
      StreamMessage.message purpose.code direction.code sessionId message := rfl

theorem writeMessage_eq_ok (h : message.length ≤ StreamMessage.maxMessageBytes) :
    writeMessage purpose direction sessionId .default true message =
      .ok (StreamMessage.message purpose.code direction.code sessionId message) := by
  have hsmall : message.length < 4294967296 := lt_of_le_of_lt h (by decide)
  rw [writeMessage, ensure_true _ (show _ ≤ TransportLimits.default.maxMessageBytes from h),
    ensure_true _ hsmall]
  simp only [ok_bind, ensure_true _ True.intro, bytes_eq, pure_eq_ok]

theorem readExact_eq_ok {count : ℕ} {taken rest : List Byte} :
    readExact count incoming = .ok (taken, rest) ↔ incoming = taken ++ rest ∧ taken.length = count := by
  simp only [readExact, bind_eq_ok, ensure_eq_ok, exists_const, pure_eq_ok, Except.ok.injEq,
    Prod.mk.injEq]
  constructor
  · intro hparts
    obtain ⟨hcount, rfl, rfl⟩ := hparts
    exact ⟨(List.take_append_drop count incoming).symm, List.length_take_of_le hcount⟩
  · intro hparts
    obtain ⟨rfl, rfl⟩ := hparts
    exact ⟨by simp, List.take_left, List.drop_left⟩

/-- A body is read exactly from a whole message of this purpose, direction and session. -/
theorem readMessage_eq_ok (h : limits.maxMessageBytes ≤ StreamMessage.maxMessageBytes) :
    readMessage purpose direction sessionId limits incoming = .ok message ↔
      message.length ≤ limits.maxMessageBytes ∧ ∃ rest, incoming =
        StreamMessage.message purpose.code direction.code sessionId message ++ rest := by
  simp only [readMessage, bind_eq_ok, ensure_eq_ok, exists_const, pure_eq_ok, Except.ok.injEq,
    Prod.exists, readExact_eq_ok]
  constructor
  · intro hparts
    obtain ⟨header, rest, ⟨rfl, hlength⟩, ⟨hmagic, hversion, hpurpose, hdirection, hsession⟩, hbound,
      _, rest', ⟨rfl, hbody⟩, rfl⟩ := hparts
    have hheader := StreamMessage.eq_header hlength hmagic hversion hpurpose hdirection hsession
    rw [← hbody] at hheader hbound
    refine ⟨hbound, rest', ?_⟩
    rw [StreamMessage.message, ← hheader, List.append_assoc]
  · intro hparts
    obtain ⟨hbound, rest, rfl⟩ := hparts
    have hlength : bigEndianValue ((StreamMessage.header purpose.code direction.code sessionId
        message.length).drop 24) = message.length := StreamMessage.value_header _ _ _ (hbound.trans h)
    refine ⟨StreamMessage.header purpose.code direction.code sessionId message.length,
      message ++ rest, ⟨by rw [StreamMessage.message, List.append_assoc], by simp⟩, ?_,
      by rwa [hlength], message, rest, ⟨rfl, hlength.symm⟩, rfl⟩
    exact StreamMessage.fields_header ..

/-- A broken response gives no body. -/
theorem readMessage_broken (h : limits.maxMessageBytes ≤ StreamMessage.maxMessageBytes)
    (hbroken : StreamMessage.Broken purpose.code direction.code (some sessionId) incoming) :
    ∃ error, readMessage purpose direction sessionId limits incoming = .error error := by
  cases hread : readMessage purpose direction sessionId limits incoming with
  | error error => exact ⟨error, rfl⟩
  | ok message =>
      obtain ⟨hbound, rest, rfl⟩ := (readMessage_eq_ok h).mp hread
      refine absurd hbroken (StreamMessage.not_broken (hbound.trans h) fun id hid => ?_)
      exact Option.some.inj hid

namespace DesktopStreamSession

variable {s : DesktopStreamSession} {request : List Byte} {stream : Stream}

/-- Every exchange closes the session. -/
theorem exchange_closes (s : DesktopStreamSession) (purpose : SessionPurpose) (request : List Byte)
    (stream : Stream) : (s.exchange purpose request stream).2.closed = true := by
  rw [exchange]
  split_ifs with hclosed
  · exact hclosed
  · rfl

/-- A closed session answers nothing more. -/
theorem closed_answers (hclosed : s.closed = true) (later : List Call) :
    ∀ x ∈ Transducer.answers respond s later, ∀ body, x ≠ some (.ok body) := by
  induction later generalizing s with
  | nil => simp [Transducer.answers]
  | cons call later ih =>
      cases call with
      | cancel => exact List.forall_mem_cons.mpr ⟨by simp [respond], ih rfl⟩
      | exchange purpose request stream =>
          have hrefused : s.exchange purpose request stream = (.error .sessionClosed, s) := by
            rw [exchange, if_pos hclosed]
          rw [Transducer.answers, respond, hrefused]
          exact List.forall_mem_cons.mpr ⟨by simp, ih hclosed⟩

/-- An exchange that reads a broken response fails. -/
theorem exchange_broken (hlimits : s.limits.maxMessageBytes ≤ StreamMessage.maxMessageBytes)
    (hbroken : StreamMessage.Broken purpose.code Direction.phoneResponse.code (some s.sessionId)
      stream.incoming) : ∃ error, (s.exchange purpose request stream).1 = .error error := by
  obtain ⟨error, herror⟩ := readMessage_broken hlimits hbroken
  rw [exchange]
  split_ifs
  · exact ⟨_, rfl⟩
  · simp only [herror]
    cases writeMessage purpose .desktopRequest s.sessionId s.limits stream.writes request with
    | error failure => exact ⟨failure, rfl⟩
    | ok written =>
        by_cases hflushes : stream.flushes = true
        · exact ⟨error, by simp [hflushes, ensure]⟩
        · exact ⟨.io, by simp [hflushes, ensure]⟩

end DesktopStreamSession

end Correctness

end AgePluginPhone.Desktop.Transport
