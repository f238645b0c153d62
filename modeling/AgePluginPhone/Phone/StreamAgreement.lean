import AgePluginPhone.Desktop.Transport
import AgePluginPhone.Android.StreamTransport
import AgePluginPhone.Ios.StreamTransport

/-!
# Agreement of the stream transports

What the desktop writes the phones read, what they answer the desktop reads, and what is not a
message ends the session of whoever reads it.
-/

namespace AgePluginPhone.Phone.Stream

open Library AgePluginPhone.Core AgePluginPhone.Desktop.Transport

def androidPurpose : SessionPurpose → Android.Stream.Purpose
  | .pairing => .pairing
  | .unwrap => .unwrap

def iosPurpose : SessionPurpose → Ios.Stream.StreamPurpose
  | .pairing => .pairing
  | .unwrap => .unwrap

theorem androidPurpose_code (purpose : SessionPurpose) :
    (androidPurpose purpose).code = purpose.code := by
  cases purpose <;> rfl

theorem iosPurpose_rawValue (purpose : SessionPurpose) :
    (iosPurpose purpose).rawValue = purpose.code := by
  cases purpose <;> rfl

variable (purpose : SessionPurpose) (sessionId : Bytes 16)

/-- The Android session of a request that has been read. -/
def androidReady : Android.Stream.PhoneStreamSession :=
  { Android.Stream.PhoneStreamSession.new (androidPurpose purpose) with sessionId := some sessionId }

/-- The iOS session of a request that has been delivered. -/
def iosReady : Ios.Stream.PhoneStreamSession := ⟨iosPurpose purpose, some sessionId, false, true⟩

/-- What each phone makes of bytes that begin with a request: it delivers the body and is ready to
answer the session, and on iOS in whatever parts the bytes arrive, unless the peer has closed. -/
def ReadAs (bytes body : List Byte) : Prop :=
  (∀ rest, (Android.Stream.PhoneStreamSession.new (androidPurpose purpose)).receiveOrClose
      (bytes ++ rest) = (.ok body, androidReady purpose sessionId)) ∧
    ∀ (c : Ios.Stream.Connection) (rest : List Byte), c.parts.flatten = bytes ++ rest →
      ((Ios.Stream.PhoneStreamSession.new (iosPurpose purpose)).start c).1 = some (.ok body) ∧
        (((Ios.Stream.PhoneStreamSession.new (iosPurpose purpose)).start c).2 =
            iosReady purpose sessionId ∨
          c.closed = true ∧ ((Ios.Stream.PhoneStreamSession.new (iosPurpose purpose)).start c).2 =
            Ios.Stream.PhoneStreamSession.ended (iosPurpose purpose))

/-- The desktop's session before its exchange. -/
def desktopReady : DesktopStreamSession := ⟨.default, sessionId, false⟩

/-- The desktop's exchange reads exactly this body from bytes that begin with a response. -/
def AnsweredBy (bytes response : List Byte) : Prop :=
  ∀ request rest : List Byte, request.length ≤ StreamMessage.maxMessageBytes →
    (desktopReady sessionId).exchange purpose request ⟨true, true, bytes ++ rest⟩ =
      (.ok response, ⟨.default, sessionId, true⟩)

/-- A reader of a broken message delivers no body, then or later. -/
def Refused (first : Option (Except E (List Byte))) (later : List (Option (Except E (List Byte)))) :
    Prop :=
  (∃ error, first = some (.error error)) ∧ ∀ x ∈ later, ∀ body, x ≠ some (.ok body)

section Agreement

variable {purpose sessionId} {body : List Byte}

private theorem request_read (h : body.length ≤ StreamMessage.maxMessageBytes) :
    ReadAs purpose sessionId
      (StreamMessage.message purpose.code Direction.desktopRequest.code sessionId body) body := by
  constructor
  · intro rest
    rw [← androidPurpose_code]
    exact Android.Stream.PhoneStreamSession.receive_message h
  · intro c rest hparts
    rw [← iosPurpose_rawValue] at hparts
    exact Ios.Stream.PhoneStreamSession.start_message h hparts

private theorem response_read (h : body.length ≤ StreamMessage.maxMessageBytes) :
    AnsweredBy purpose sessionId
      (StreamMessage.message purpose.code Direction.phoneResponse.code sessionId body) body := by
  intro request rest hrequest
  have hread : readMessage purpose .phoneResponse sessionId .default
      (StreamMessage.message purpose.code Direction.phoneResponse.code sessionId body ++ rest) =
        .ok body := (readMessage_eq_ok le_rfl).mpr ⟨h, rest, rfl⟩
  simp [desktopReady, DesktopStreamSession.exchange, writeMessage_eq_ok hrequest, hread, ensure]

private theorem desktop_refuses {request : List Byte} {stream : Stream}
    (hbroken : StreamMessage.Broken purpose.code Direction.phoneResponse.code (some sessionId)
      stream.incoming) (later : List DesktopStreamSession.Call) :
    Refused (some ((desktopReady sessionId).exchange purpose request stream).1)
      (Transducer.answers DesktopStreamSession.respond
        ((desktopReady sessionId).exchange purpose request stream).2 later) := by
  have hclosed := DesktopStreamSession.exchange_closes (desktopReady sessionId) purpose request stream
  obtain ⟨error, herror⟩ : ∃ error, ((desktopReady sessionId).exchange purpose request stream).1 =
      .error error := DesktopStreamSession.exchange_broken le_rfl hbroken
  exact ⟨⟨error, congrArg some herror⟩, DesktopStreamSession.closed_answers hclosed later⟩

private theorem android_refuses {input : List Byte}
    (hbroken : StreamMessage.Broken purpose.code Direction.desktopRequest.code none input)
    (later : List Android.Stream.PhoneStreamSession.Call) :
    let outcome := (Android.Stream.PhoneStreamSession.new (androidPurpose purpose)).receiveOrClose input
    Refused (some outcome.1)
      (Transducer.answers Android.Stream.PhoneStreamSession.respond outcome.2 later) := by
  rw [← androidPurpose_code] at hbroken
  obtain ⟨failure, hfailure, hclosed⟩ :=
    Android.Stream.PhoneStreamSession.receive_broken hbroken
  exact ⟨⟨failure, congrArg some hfailure⟩,
    Android.Stream.PhoneStreamSession.closed_answers hclosed later⟩

private theorem ios_refuses {c : Ios.Stream.Connection}
    (hbroken : StreamMessage.Broken purpose.code Direction.desktopRequest.code none c.parts.flatten)
    (later : List Ios.Stream.PhoneStreamSession.Call) :
    let outcome := (Ios.Stream.PhoneStreamSession.new (iosPurpose purpose)).start c
    Refused outcome.1
      (Transducer.answers Ios.Stream.PhoneStreamSession.respond outcome.2 later) := by
  rw [← iosPurpose_rawValue] at hbroken
  obtain ⟨error, herror⟩ := Ios.Stream.PhoneStreamSession.start_broken hbroken
  refine ⟨⟨error, congrArg Prod.fst herror⟩, ?_⟩
  rw [herror]
  exact Ios.Stream.PhoneStreamSession.ended_answers rfl later

end Agreement

/-- The framing of a stream: requests and responses of every body are read as they were written,
and every broken message is refused for good. -/
theorem stream_framing_agrees (purpose : SessionPurpose) (sessionId : Bytes 16) :
    (DesktopStreamSession.new sessionId .default = .ok (desktopReady sessionId)) ∧
    (∀ body : List Byte, body.length ≤ 65536 →
      (∃ request, writeMessage purpose .desktopRequest sessionId .default true body = .ok request ∧
        ReadAs purpose sessionId request body) ∧
      (∃ response, ((androidReady purpose sessionId).sendResponse true body).1 = .ok response ∧
        AnsweredBy purpose sessionId response body) ∧
      ∃ response, ((iosReady purpose sessionId).sendResponse body).1 = .ok response ∧
        AnsweredBy purpose sessionId response body) ∧
    (∀ request stream later, StreamMessage.Broken purpose.code Direction.phoneResponse.code
        (some sessionId) stream.incoming →
      Refused (some ((desktopReady sessionId).exchange purpose request stream).1)
        (Transducer.answers DesktopStreamSession.respond
          ((desktopReady sessionId).exchange purpose request stream).2 later)) ∧
    (∀ input later, StreamMessage.Broken purpose.code Direction.desktopRequest.code none input →
      let outcome :=
        (Android.Stream.PhoneStreamSession.new (androidPurpose purpose)).receiveOrClose input
      Refused (some outcome.1)
        (Transducer.answers Android.Stream.PhoneStreamSession.respond outcome.2 later)) ∧
    ∀ (c : Ios.Stream.Connection) later, StreamMessage.Broken purpose.code
        Direction.desktopRequest.code none c.parts.flatten →
      let outcome := (Ios.Stream.PhoneStreamSession.new (iosPurpose purpose)).start c
      Refused outcome.1
        (Transducer.answers Ios.Stream.PhoneStreamSession.respond outcome.2 later) := by
  refine ⟨rfl, ?_, ?_, ?_, ?_⟩
  · intro body hbody
    refine ⟨⟨_, writeMessage_eq_ok hbody, request_read hbody⟩,
      ⟨_, ?_, response_read hbody⟩, ⟨_, ?_, response_read hbody⟩⟩
    · rw [← androidPurpose_code]
      exact Android.Stream.write_eq_ok hbody
    · rw [← iosPurpose_rawValue]
      exact Ios.Stream.PhoneStreamSession.sendResponse_eq rfl rfl hbody
  · intro request stream later hbroken
    exact desktop_refuses hbroken later
  · intro input later hbroken
    exact android_refuses hbroken later
  · intro c later hbroken
    exact ios_refuses hbroken later

end AgePluginPhone.Phone.Stream
