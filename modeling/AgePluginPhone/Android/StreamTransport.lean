import AgePluginPhone.Core.StreamMessage
import AgePluginPhone.Library.Fallible
import AgePluginPhone.Library.Transducer

/-!
# The stream transport on Android

The Kotlin codec, the session around it, and what the plugin does when a request is refused.
-/

namespace AgePluginPhone.Android.Stream

open Library Cbor AgePluginPhone.Core

inductive Purpose
  | pairing
  | unwrap
  deriving DecidableEq

def Purpose.code : Purpose → Byte
  | .pairing => 1
  | .unwrap => 2

inductive Failure
  | streamTransport
  | illegalState
  deriving DecidableEq

def desktopRequest : Byte := 1

def phoneResponse : Byte := 2

def version : ℕ := 1

/-- `readFully`, from the bytes to come to those read and the rest. -/
def readFully (count : ℕ) (input : List Byte) : Except Failure (List Byte × List Byte) := do
  ensure (count ≤ input.length) .streamTransport
  return (input.take count, input.drop count)

/-- A byte of the header, as an `Int`. -/
def byteAt (header : List Byte) (i : ℕ) : ℕ := (header.getD i 0).val

/-- `copyOfRange(8, 24)` of a header. -/
def sessionIdOf (header : List Byte) : Except Failure (Bytes 16) :=
  if h : ((header.drop 8).take 16).length = 16 then .ok ⟨(header.drop 8).take 16, h⟩
  else .error .streamTransport

/-- `StreamTransportCodec.read`, with the bytes it leaves. -/
def read (input : List Byte) (purpose : Purpose) (direction : Byte)
    (expectedSessionId : Option (Bytes 16)) : Except Failure ((Bytes 16 × List Byte) × List Byte) := do
  let (header, rest) ← readFully StreamMessage.headerLen input
  let version' := byteAt header 4 <<< 8 ||| byteAt header 5
  let sessionId ← sessionIdOf header
  ensure (¬ (header.take 4 ≠ StreamMessage.magic ∨ version' ≠ version ∨
    byteAt header 6 ≠ purpose.code.val ∨ byteAt header 7 ≠ direction.val ∨
    (expectedSessionId.isSome = true ∧ expectedSessionId ≠ some sessionId))) .streamTransport
  let length := ((byteAt header 24 <<< 24 ||| byteAt header 25 <<< 16) ||| byteAt header 26 <<< 8) |||
    byteAt header 27
  ensure (length ≤ StreamMessage.maxMessageBytes) .streamTransport
  let (body, rest) ← readFully length rest
  return ((sessionId, body), rest)

/-- `StreamTransportCodec.write`, with the bytes it writes. -/
def write (writes : Bool) (purpose : Purpose) (direction : Byte) (sessionId : Bytes 16)
    (body : List Byte) : Except Failure (List Byte) := do
  ensure (body.length ≤ StreamMessage.maxMessageBytes) .streamTransport
  ensure (writes = true) .streamTransport
  return StreamMessage.magic ++ (bigEndian 2 version ++ ([purpose.code] ++ ([direction] ++
    (sessionId.1 ++ (bigEndian 4 body.length ++ body)))))

structure PhoneStreamSession where
  purpose : Purpose
  sessionId : Option (Bytes 16)
  closed : Bool

namespace PhoneStreamSession

/-- A session on a connected socket. -/
def new (purpose : Purpose) : PhoneStreamSession := ⟨purpose, none, false⟩

def close (s : PhoneStreamSession) : PhoneStreamSession :=
  if s.closed then s else { s with closed := true, sessionId := none }

def receiveRequest (s : PhoneStreamSession) (input : List Byte) :
    Except Failure (List Byte) × PhoneStreamSession :=
  if s.closed = true ∨ s.sessionId.isSome = true then (.error .illegalState, s)
  else
    match read input s.purpose desktopRequest none with
    | .ok ((sessionId, body), _) => (.ok body, { s with sessionId := some sessionId })
    | .error failure => (.error failure, s)

/-- `sendResponse`, with the bytes it sends. -/
def sendResponse (s : PhoneStreamSession) (writes : Bool) (response : List Byte) :
    Except Failure (List Byte) × PhoneStreamSession :=
  if s.closed then (.error .illegalState, s)
  else
    match s.sessionId with
    | none => (.error .streamTransport, s)
    | some id => (write writes s.purpose phoneResponse id response, s.close)

/-- The plugin's receipt of a request: whatever fails, the session is closed. -/
def receiveOrClose (s : PhoneStreamSession) (input : List Byte) :
    Except Failure (List Byte) × PhoneStreamSession :=
  match s.receiveRequest input with
  | (.ok body, s) => (.ok body, s)
  | (.error failure, s) => (.error failure, s.close)

inductive Call
  | receive (input : List Byte)
  | send (writes : Bool) (response : List Byte)
  | close

/-- What a call returns; `close` returns nothing. -/
def respond (s : PhoneStreamSession) : Call → Option (Except Failure (List Byte)) × PhoneStreamSession
  | .receive input =>
      let outcome := s.receiveOrClose input
      (some outcome.1, outcome.2)
  | .send writes response =>
      let outcome := s.sendResponse writes response
      (some outcome.1, outcome.2)
  | .close => (none, s.close)

end PhoneStreamSession

section Correctness

variable {purpose : Purpose} {direction : Byte} {sessionId : Bytes 16} {expected : Option (Bytes 16)}
  {input body rest : List Byte}

theorem write_eq_ok (h : body.length ≤ StreamMessage.maxMessageBytes) :
    write true purpose direction sessionId body =
      .ok (StreamMessage.message purpose.code direction sessionId body) := by
  rw [write, ensure_true _ h, ensure_true _ rfl]
  simp only [ok_bind, pure_eq_ok, StreamMessage.message, StreamMessage.header, List.append_assoc]
  rfl

theorem readFully_eq_ok {count : ℕ} {taken : List Byte} :
    readFully count input = .ok (taken, rest) ↔ input = taken ++ rest ∧ taken.length = count := by
  simp only [readFully, bind_eq_ok, ensure_eq_ok, exists_const, pure_eq_ok, Except.ok.injEq,
    Prod.mk.injEq]
  constructor
  · intro hparts
    obtain ⟨hcount, rfl, rfl⟩ := hparts
    exact ⟨(List.take_append_drop count input).symm, List.length_take_of_le hcount⟩
  · intro hparts
    obtain ⟨rfl, rfl⟩ := hparts
    exact ⟨by simp, List.take_left, List.drop_left⟩

private theorem version_iff (a b : Byte) : a.val <<< 8 ||| b.val = version ↔ [a, b] = [0, 1] := by
  rw [← Nat.shiftLeft_add_eq_or_of_lt (by omega), Nat.shiftLeft_eq, version]
  simp only [List.cons.injEq, and_true, Fin.ext_iff, Fin.val_zero, Fin.val_one]
  omega

private theorem sessionIdOf_eq_ok {header : List Byte} :
    sessionIdOf header = .ok sessionId ↔ (header.drop 8).take 16 = sessionId.1 := by
  rw [sessionIdOf]
  split_ifs with h
  · rw [Except.ok.injEq, Subtype.ext_iff]
  · simp only [false_iff]
    intro heq
    exact h (heq ▸ sessionId.2)

/-- The checks of a header, byte by byte. -/
private theorem header_checks {header : List Byte} (hlength : header.length = StreamMessage.headerLen) :
    (¬ (header.take 4 ≠ StreamMessage.magic ∨
        (byteAt header 4 <<< 8 ||| byteAt header 5) ≠ version ∨
        byteAt header 6 ≠ purpose.code.val ∨ byteAt header 7 ≠ direction.val ∨
        (expected.isSome = true ∧ expected ≠ some sessionId))) ↔
      header.take 4 = StreamMessage.magic ∧ (header.drop 4).take 2 = [0, 1] ∧
        (header.drop 6).take 1 = [purpose.code] ∧ (header.drop 7).take 1 = [direction] ∧
        ∀ id, expected = some id → sessionId = id := by
  have hexpected : ¬ (expected.isSome = true ∧ expected ≠ some sessionId) ↔
      ∀ id, expected = some id → sessionId = id := by
    cases expected with
    | none => simp
    | some id => simp [eq_comm]
  rw [StreamMessage.take_two hlength, StreamMessage.take_one hlength (by decide),
    StreamMessage.take_one hlength (by decide), ← version_iff, ← hexpected]
  simp only [not_or, not_not, ne_eq, byteAt, List.cons.injEq, and_true, Fin.val_inj]

private theorem length_eq {header : List Byte} (hlength : header.length = StreamMessage.headerLen) :
    (((byteAt header 24 <<< 24 ||| byteAt header 25 <<< 16) ||| byteAt header 26 <<< 8) |||
      byteAt header 27) = bigEndianValue (header.drop 24) :=
  StreamMessage.length_value hlength

/-- A request is read exactly from a whole message of this purpose and direction. -/
theorem read_eq_ok : read input purpose direction expected = .ok ((sessionId, body), rest) ↔
    body.length ≤ StreamMessage.maxMessageBytes ∧ (∀ id, expected = some id → sessionId = id) ∧
      input = StreamMessage.message purpose.code direction sessionId body ++ rest := by
  simp only [read, bind_eq_ok, ensure_eq_ok, exists_const, pure_eq_ok, Except.ok.injEq,
    Prod.exists, Prod.mk.injEq, readFully_eq_ok, sessionIdOf_eq_ok]
  constructor
  · intro hparts
    obtain ⟨header, _, ⟨rfl, hlength⟩, id, hsession, hchecks, hbound, _, _, ⟨rfl, hbody⟩,
      ⟨rfl, rfl⟩, rfl⟩ := hparts
    obtain ⟨hmagic, hversion, hpurpose, hdirection, hexpected⟩ := (header_checks hlength).mp hchecks
    rw [length_eq hlength] at hbound hbody
    have hheader := StreamMessage.eq_header hlength hmagic hversion hpurpose hdirection hsession
    rw [← hbody] at hheader hbound
    refine ⟨hbound, hexpected, ?_⟩
    rw [StreamMessage.message, ← hheader, List.append_assoc]
  · intro hparts
    obtain ⟨hbound, hexpected, rfl⟩ := hparts
    have hlength := StreamMessage.header_length purpose.code direction sessionId body.length
    have hvalue := StreamMessage.value_header purpose.code direction sessionId hbound
    obtain ⟨hmagic, hversion, hpurpose, hdirection, hsession⟩ :=
      StreamMessage.fields_header purpose.code direction sessionId body.length
    have hchecks := (header_checks hlength).mpr
      ⟨hmagic, hversion, hpurpose, hdirection, hexpected⟩
    refine ⟨StreamMessage.header purpose.code direction sessionId body.length, body ++ rest,
      ⟨by rw [StreamMessage.message, List.append_assoc], hlength⟩, sessionId, hsession, hchecks, ?_,
      body, rest, ⟨rfl, ?_⟩, ⟨rfl, rfl⟩, rfl⟩
    · rw [length_eq hlength, hvalue]
      exact hbound
    · rw [length_eq hlength, hvalue]

namespace PhoneStreamSession

variable {s : PhoneStreamSession}

/-- The request of a whole message is received, and the session takes its identifier. -/
theorem receive_message (h : body.length ≤ StreamMessage.maxMessageBytes) :
    (new purpose).receiveOrClose (StreamMessage.message purpose.code desktopRequest sessionId body ++
      rest) = (.ok body, { new purpose with sessionId := some sessionId }) := by
  have hread : read (StreamMessage.message purpose.code desktopRequest sessionId body ++ rest)
      purpose desktopRequest none = .ok ((sessionId, body), rest) :=
    read_eq_ok.mpr ⟨h, by simp, rfl⟩
  simp [receiveOrClose, receiveRequest, new, hread]

/-- A broken request is refused, and the session is closed. -/
theorem receive_broken (hbroken : StreamMessage.Broken purpose.code desktopRequest none input) :
    ∃ failure, ((new purpose).receiveOrClose input).1 = .error failure ∧
      ((new purpose).receiveOrClose input).2.closed = true := by
  cases hread : read input purpose desktopRequest none with
  | ok message =>
      obtain ⟨⟨sessionId, body⟩, rest⟩ := message
      obtain ⟨hbound, hexpected, rfl⟩ := read_eq_ok.mp hread
      exact absurd hbroken (StreamMessage.not_broken hbound hexpected)
  | error failure =>
      have hreceive : (new purpose).receiveRequest input = (.error failure, new purpose) := by
        simp [receiveRequest, new, hread]
      refine ⟨failure, ?_, ?_⟩ <;> rw [receiveOrClose, hreceive]
      rfl

/-- A closed session answers nothing more. -/
theorem closed_answers (hclosed : s.closed = true) (later : List Call) :
    ∀ x ∈ Transducer.answers respond s later, ∀ body, x ≠ some (.ok body) := by
  induction later with
  | nil => simp [Transducer.answers]
  | cons call later ih =>
      have hclose : s.close = s := if_pos hclosed
      cases call with
      | close =>
          rw [Transducer.answers, respond, hclose]
          exact List.forall_mem_cons.mpr ⟨by simp, ih⟩
      | receive input =>
          have hreceive : s.receiveRequest input = (.error .illegalState, s) :=
            if_pos (Or.inl hclosed)
          rw [Transducer.answers, respond, receiveOrClose, hreceive]
          simp only [hclose]
          exact List.forall_mem_cons.mpr ⟨by simp, ih⟩
      | send writes response =>
          have hsend : s.sendResponse writes response = (.error .illegalState, s) := if_pos hclosed
          rw [Transducer.answers, respond, hsend]
          exact List.forall_mem_cons.mpr ⟨by simp, ih⟩

end PhoneStreamSession

end Correctness

end AgePluginPhone.Android.Stream
