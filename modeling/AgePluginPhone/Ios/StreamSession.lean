import AgePluginPhone.Ios.StreamTransport
import AgePluginPhone.Library.Threads

/-!
# The callbacks of an iOS stream session

`PhoneStreamSession` is called from the queue of its connection and by its owner. Each callback and
each call is a thread that takes one locked section, or one call out of the session, at a time.
-/

namespace AgePluginPhone.Ios.StreamSession

open Library Threads
open AgePluginPhone.Ios.Stream (StreamPurpose StreamTransportError decodeHeader)

inductive NWError
  | posix (code : ℤ)
  | dns (code : ℤ)
  | tls (status : ℤ)
  deriving DecidableEq

inductive Failure
  | transport (error : StreamTransportError)
  | network (error : NWError)
  deriving DecidableEq

inductive ContentContext
  | defaultMessage
  | finalMessage
  deriving DecidableEq

/-- The arguments of `connection.send`. -/
structure Content where
  content : List Byte
  contentContext : ContentContext
  isComplete : Bool
  deriving DecidableEq

def Content.final (message : Content) : Prop :=
  message.contentContext = .finalMessage ∧ message.isComplete = true

/-- The receive that the connection has outstanding. -/
inductive Receiving
  | header (accumulated : List Byte)
  | body (count : ℕ) (peerClosed : Bool) (accumulated : List Byte)
  | monitor
  deriving DecidableEq

/-- The session, with what its connection and its timer have still to call. Handlers are numbered
in the order in which they are passed to `watchPeerDisconnect`. -/
structure PhoneStreamSession where
  purpose : StreamPurpose
  sessionId : Option (Bytes 16)
  terminal : Bool
  requestDelivered : Bool
  remoteDisconnectedAfterDelivery : Bool
  disconnectHandler : Option ℕ
  started : Bool
  ready : Bool
  timer : Bool
  receiving : Option Receiving
  sending : ℕ
  handlers : ℕ

def PhoneStreamSession.new (purpose : StreamPurpose) : PhoneStreamSession where
  purpose
  sessionId := none
  terminal := false
  requestDelivered := false
  remoteDisconnectedAfterDelivery := false
  disconnectHandler := none
  started := false
  ready := false
  timer := false
  receiving := none
  sending := 0
  handlers := 0

/-- The calls of the owner. -/
inductive Call
  | watchPeerDisconnect
  | sendResponse (body : List Byte)
  | close
  deriving DecidableEq

inductive Event
  | start
  | ready
  | received (data : Option (List Byte)) (complete : Bool) (error : Option NWError)
  | failed (error : NWError)
  | cancelled
  | timer
  | contentProcessed (error : Option NWError)
  | call (call : Call)

inductive Action
  | identify (id : Bytes 16) (length : ℕ) (peerClosed : Bool)
  | finish (result : Except Failure (List Byte)) (close peerClosed : Bool)
  | disconnected (error : Failure)
  | handlePeerDisconnectAfterDelivery
  | monitorPeerDisconnect
  | cancel
  | complete (result : Except Failure (List Byte))
  | callHandler (handler : ℕ)
  | watchPeerDisconnect (handler : ℕ)
  | sendResponse (body : List Byte)
  | send (message : Content)
  | close
  | respond (result : Except Failure Unit)

/-- What happens in a step. A section notes that the request is delivered, the disconnect of the
peer recorded, or an open session closed; else it is passed. -/
inductive Note
  | started
  | ready
  | received (data : List Byte) (complete : Bool) (error : Option NWError)
  | changed (error : Failure)
  | timer
  | processed (error : Option NWError)
  | asked (call : Call)
  | identified (id : Bytes 16)
  | delivered (result : Except Failure (List Byte))
  | recorded
  | closed
  | watched (handler : ℕ)
  | monitoring
  | cancelled
  | completed (result : Except Failure (List Byte))
  | called (handler : ℕ)
  | sent (message : Content)
  | responded (result : Except Failure Unit)
  | passed
  deriving DecidableEq

namespace PhoneStreamSession

/-- A callback of `receiveExactly`: what its completion gets, or the bytes it goes on with. -/
def collect (count : ℕ) (accumulated data : List Byte) (complete : Bool) (error : Option NWError) :
    (Except Failure (List Byte) × Bool) ⊕ List Byte :=
  match error with
  | some error => .inl (.error (.network error), false)
  | none =>
      if (accumulated ++ data).length = count then .inl (.ok (accumulated ++ data), complete)
      else if complete then .inl (.error (.transport .disconnected), false)
      else .inr (accumulated ++ data)

/-- The completion of the receive of the header. -/
def headerReceived (purpose : StreamPurpose) (peerClosed : Bool) :
    Except Failure (List Byte) → List Action
  | .error error => [.finish (.error error) true false]
  | .ok header =>
      match decodeHeader header purpose 1 with
      | .ok fields => [.identify fields.1 fields.2 peerClosed]
      | .error error => [.finish (.error (.transport error)) true false]

/-- The completion of the receive of the body. -/
def bodyReceived (peerClosed bodyPeerClosed : Bool) : Except Failure (List Byte) → List Action
  | .ok data => [.finish (.ok data) false (peerClosed || bodyPeerClosed)]
  | .error error => [.finish (.error error) true false]

abbrev Effect := Threads.Effect PhoneStreamSession Action Note

/-- A callback of `connection.receive`, which gets no more than it asked for. -/
def received (s : PhoneStreamSession) (data : List Byte) (complete : Bool)
    (error : Option NWError) : Option Effect :=
  let note : Note := .received data complete error
  match s.receiving with
  | none => none
  | some (.header accumulated) =>
      if 28 - accumulated.length < data.length then none
      else
        match collect 28 accumulated data complete error with
        | .inl (result, peerClosed) =>
            some ⟨note, { s with receiving := none }, headerReceived s.purpose peerClosed result⟩
        | .inr accumulated => some ⟨note, { s with receiving := some (.header accumulated) }, []⟩
  | some (.body count peerClosed accumulated) =>
      if count - accumulated.length < data.length then none
      else
        match collect count accumulated data complete error with
        | .inl (result, bodyPeerClosed) =>
            some ⟨note, { s with receiving := none }, bodyReceived peerClosed bodyPeerClosed result⟩
        | .inr accumulated =>
            some ⟨note, { s with receiving := some (.body count peerClosed accumulated) }, []⟩
  | some .monitor =>
      if 1 < data.length then none
      else if error.isSome ∨ complete = true ∨ data ≠ [] then
        some ⟨note, { s with receiving := none }, [.handlePeerDisconnectAfterDelivery]⟩
      else some ⟨note, { s with receiving := none }, [.monitorPeerDisconnect]⟩

def arrive (s : PhoneStreamSession) : Event → Option Effect
  | .start => if s.started then none else some ⟨.started, { s with started := true }, []⟩
  | .ready =>
      if s.started ∧ ¬ s.ready then
        some ⟨.ready, { s with ready := true, receiving := some (.header []) }, []⟩
      else none
  | .received data complete error => s.received (data.getD []) complete error
  | .failed error =>
      if s.started then some ⟨.changed (.network error), s, [.disconnected (.network error)]⟩ else none
  | .cancelled =>
      if s.started then
        some ⟨.changed (.transport .disconnected), s, [.disconnected (.transport .disconnected)]⟩
      else none
  | .timer =>
      if s.started ∧ ¬ s.timer then
        some ⟨.timer, { s with timer := true }, [.finish (.error (.transport .timeout)) true false]⟩
      else none
  | .contentProcessed error =>
      if s.sending = 0 then none
      else
        let result := match error with
          | none => .ok ()
          | some error => .error (.network error)
        some ⟨.processed error, { s with sending := s.sending - 1 }, [.close, .respond result]⟩
  | .call .watchPeerDisconnect =>
      some ⟨.asked .watchPeerDisconnect, { s with handlers := s.handlers + 1 },
        [.watchPeerDisconnect s.handlers]⟩
  | .call (.sendResponse body) => some ⟨.asked (.sendResponse body), s, [.sendResponse body]⟩
  | .call .close => some ⟨.asked .close, s, [.close]⟩

def identify (s : PhoneStreamSession) (id : Bytes 16) (length : ℕ) (peerClosed : Bool) : Effect :=
  if s.terminal then ⟨.passed, s, []⟩
  else
    let s := { s with sessionId := some id }
    if peerClosed ∧ 0 < length then
      ⟨.identified id, s, [.finish (.error (.transport .disconnected)) true false]⟩
    else if length = 0 then ⟨.identified id, s, bodyReceived peerClosed false (.ok [])⟩
    else ⟨.identified id, { s with receiving := some (.body length peerClosed []) }, []⟩

def finish (s : PhoneStreamSession) (result : Except Failure (List Byte)) (close peerClosed : Bool) :
    Effect :=
  if s.requestDelivered ∨ s.terminal then ⟨.passed, s, []⟩
  else if close then
    ⟨.delivered result, { s with requestDelivered := true, terminal := true, sessionId := none },
      [.cancel, .complete result]⟩
  else if peerClosed then
    ⟨.delivered result, { s with requestDelivered := true },
      [.handlePeerDisconnectAfterDelivery, .complete result]⟩
  else
    ⟨.delivered result, { s with requestDelivered := true },
      [.monitorPeerDisconnect, .complete result]⟩

/-- The disconnect of the peer after delivery, and the handler it takes. -/
def recordDisconnect (s : PhoneStreamSession) : Effect :=
  ⟨.recorded, { s with
      terminal := true
      sessionId := none
      remoteDisconnectedAfterDelivery := true
      disconnectHandler := none },
    .cancel :: s.disconnectHandler.toList.map .callHandler⟩

def disconnected (s : PhoneStreamSession) (error : Failure) : Effect :=
  if s.terminal then ⟨.passed, s, []⟩
  else if s.requestDelivered then s.recordDisconnect
  else
    ⟨.delivered (.error error),
      { s with terminal := true, sessionId := none, requestDelivered := true },
      [.cancel, .complete (.error error)]⟩

def handlePeerDisconnectAfterDelivery (s : PhoneStreamSession) : Effect :=
  if ¬ s.terminal ∧ s.requestDelivered then s.recordDisconnect else ⟨.passed, s, [.cancel]⟩

def watchPeerDisconnect (s : PhoneStreamSession) (handler : ℕ) : Effect :=
  if s.remoteDisconnectedAfterDelivery then ⟨.watched handler, s, [.callHandler handler]⟩
  else if s.terminal then ⟨.watched handler, s, []⟩
  else ⟨.watched handler, { s with disconnectHandler := some handler }, []⟩

def sendResponse (s : PhoneStreamSession) (body : List Byte) : Effect :=
  match if s.terminal then none else s.sessionId with
  | none => ⟨.passed, s, [.close, .respond (.error (.transport .disconnected))]⟩
  | some activeSessionId =>
      match Stream.encode s.purpose 2 activeSessionId body with
      | .ok message => ⟨.passed, s, [.send ⟨message, .finalMessage, true⟩]⟩
      | .error error => ⟨.passed, s, [.close, .respond (.error (.transport error))]⟩

def close (s : PhoneStreamSession) : Effect :=
  if s.terminal then ⟨.passed, s, []⟩
  else ⟨.closed, { s with terminal := true, sessionId := none, disconnectHandler := none }, [.cancel]⟩

def perform (s : PhoneStreamSession) : Action → Effect
  | .identify id length peerClosed => s.identify id length peerClosed
  | .finish result close peerClosed => s.finish result close peerClosed
  | .disconnected error => s.disconnected error
  | .handlePeerDisconnectAfterDelivery => s.handlePeerDisconnectAfterDelivery
  | .monitorPeerDisconnect => ⟨.monitoring, { s with receiving := some .monitor }, []⟩
  | .cancel => ⟨.cancelled, s, []⟩
  | .complete result => ⟨.completed result, s, []⟩
  | .callHandler handler => ⟨.called handler, s, []⟩
  | .watchPeerDisconnect handler => s.watchPeerDisconnect handler
  | .sendResponse body => s.sendResponse body
  | .send message => ⟨.sent message, { s with sending := s.sending + 1 }, []⟩
  | .close => s.close
  | .respond result => ⟨.responded result, s, []⟩

/-- The session under the events of its connection, its timer and its owner. -/
def system : Threads.System PhoneStreamSession Action Event Note where
  perform := perform
  arrive := arrive

end PhoneStreamSession

end AgePluginPhone.Ios.StreamSession
