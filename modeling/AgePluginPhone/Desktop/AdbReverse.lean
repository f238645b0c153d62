import AgePluginPhone.Desktop.Transport
import AgePluginPhone.Library.Interaction
import AgePluginPhone.Library.TextFields

/-!
# The ADB reverse session

`AdbReverseSession` asks the system for ADB commands, a listener, a stream and the pipe of a cleanup
guard. What each of them answers is left to the host.
-/

namespace AgePluginPhone.Desktop.Adb

open Library Cbor AgePluginPhone.Core Transport

def androidLoopbackPort : ℕ := 47139

def androidUnwrapAction : String := "io.github.biulight.age_plugin_phone.action.UNWRAP_USB"

def androidMainComponent : String := "io.github.biulight.age_plugin_phone/.MainActivity"

structure Device where
  serial : String
  state : String
  deriving DecidableEq

inductive AdbError
  | unavailable
  | noDevice
  | deviceSelectionRequired
  | deviceUnavailable
  | reverseRuleExists
  | reverseRule
  | appLaunch
  | connectionTimeout
  | invalidPeer
  | transport
  deriving DecidableEq

section Output

/-- Not empty, at most 128 bytes, all of them visible ASCII. -/
def validAdbField (field : String) : Bool :=
  field ≠ "" && (utf8 field).length ≤ 128 && (utf8 field).all fun b => 33 ≤ b.val && b.val ≤ 126

def validSerial (serial : String) : Bool := validAdbField serial

def parseDevice (line : String) : Except AdbError Device :=
  match TextFields.splitWhitespace line with
  | [serial, state] => if validSerial serial then .ok ⟨serial, state⟩ else .error .unavailable
  | _ => .error .unavailable

def parseDevices (output : String) : Except AdbError (List Device) :=
  match TextFields.lines output with
  | [] => .error .unavailable
  | heading :: lines =>
      if TextFields.trim heading = "List of devices attached" then
        (lines.filter fun line => TextFields.trim line ≠ "").mapM parseDevice
      else .error .unavailable

/-- The phone's side of a listed rule. -/
def parseRule (line : String) : Except AdbError String :=
  match TextFields.splitWhitespace line with
  | [transport, phoneSpec, desktopSpec] =>
      if validAdbField transport && validAdbField phoneSpec && validAdbField desktopSpec then
        .ok phoneSpec
      else .error .unavailable
  | _ => .error .unavailable

/-- The rules up to the first that is malformed or the reverse rule itself. -/
def rejectRules (reverseSpec : String) : List String → Except AdbError Unit
  | [] => .ok ()
  | line :: lines => do
      let phoneSpec ← parseRule line
      if phoneSpec = reverseSpec then .error .reverseRuleExists else rejectRules reverseSpec lines

end Output

inductive IpAddr
  | v4 (octets : Bytes 4)
  | v6 (octets : Bytes 16)
  deriving DecidableEq

def IpAddr.isLoopback : IpAddr → Bool
  | .v4 octets => octets.1.head? = some 127
  | .v6 octets => octets.1 = List.replicate 15 0 ++ [1]

/-- What `accept` of a listener that does not block yields. -/
inductive Accepted
  | peer (ip : IpAddr)
  | wouldBlock
  | failed

inductive StreamSetting
  | nonblocking
  | readTimeout
  | writeTimeout

/-- What a read of one byte yields. -/
inductive Signal
  | byte (b : Byte)
  | closed
  | failed

inductive Query
  | run (args : List String)
  /-- Bind the listener, make it nonblocking and read its port. -/
  | bindListener
  | armCleanupGuard (serial : String)
  /-- How often a loop polls before it sees its deadline passed. -/
  | deadline
  | accept
  | configure (setting : StreamSetting)
  | drawSessionId
  | stream (purpose : SessionPurpose) (request : List Byte)
  /-- Write `D` to the guard and flush. -/
  | writeDisarm
  | tryWait
  | readSignal

/-- `none` stands for an input or output error. -/
def Query.Answer : Query → Type
  | run _ => Option String
  | bindListener => Option ℕ
  | armCleanupGuard _ => Option Bool
  | deadline => ℕ
  | accept => Accepted
  | configure _ => Option Unit
  | drawSessionId => Bytes 16
  | stream _ _ => Stream
  | writeDisarm => Option Unit
  | tryWait => Option Bool
  | readSignal => Signal

abbrev AdbM := Interaction Query Query.Answer

abbrev Event := Interaction.Event Query.Answer

section Commands

def specOf (port : ℕ) : String := "tcp:" ++ toString port

def reverseSpec : String := specOf androidLoopbackPort

def listArgs (serial : String) : List String := ["-s", serial, "reverse", "--list"]

def createArgs (serial desktopSpec : String) : List String :=
  ["-s", serial, "reverse", reverseSpec, desktopSpec]

def removeArgs (serial : String) : List String := ["-s", serial, "reverse", "--remove", reverseSpec]

def launchArgs (serial : String) : List String :=
  ["-s", serial, "shell", "am", "start", "-W", "-a", androidUnwrapAction, "-n", androidMainComponent]

def run (args : List String) : AdbM (Option String) := .query (Query.run args)

end Commands

/-- A guard process: whether the pipe to it is open, and whether it is armed. -/
structure CleanupGuardian where
  input : Bool
  armed : Bool
  deriving DecidableEq

/-- Wait for the guard to exit, for the polls its deadline leaves. -/
def waitForExit (polls : ℕ) : AdbM (Option Unit) := do
  match ← Interaction.query Query.tryWait with
  | none => return none
  | some true => return some ()
  | some false =>
      match polls with
      | 0 => return none
      | polls + 1 => waitForExit polls

def CleanupGuardian.disarm (guard : CleanupGuardian) : AdbM (Option Unit × CleanupGuardian) := do
  if ¬ guard.armed then return (some (), guard)
  else if ¬ guard.input then return (none, guard)
  else
    match ← Interaction.query Query.writeDisarm with
    | none => return (none, { guard with input := false })
    | some _ =>
        let polls ← Interaction.query Query.deadline
        let exited ← waitForExit polls
        return (exited, ⟨false, false⟩)

def listDevices : AdbM (Except AdbError (List Device)) := do
  match ← run ["devices"] with
  | none => return .error .unavailable
  | some output => return parseDevices output

/-- The device asked for, or the only one. -/
def choose (requestedSerial : Option String) (devices : List Device) : Except AdbError String :=
  match requestedSerial with
  | some serial =>
      if validSerial serial then
        (okOr (devices.find? fun device => device.serial = serial ∧ device.state = "device")
          .deviceUnavailable).map Device.serial
      else .error .deviceUnavailable
  | none =>
      match devices with
      | [] => .error .noDevice
      | [device] => if device.state = "device" then .ok device.serial else .error .deviceUnavailable
      | _ => .error .deviceSelectionRequired

def selectDevice (requestedSerial : Option String) : AdbM (Except AdbError String) := do
  let devices ← listDevices
  return devices.bind (choose requestedSerial)

def ensureSameOnlineDevice (serial : String) : AdbM (Except AdbError Unit) := do
  match ← selectDevice (some serial) with
  | .error failure => return .error failure
  | .ok selected => return if selected = serial then .ok () else .error .deviceUnavailable

def rejectExistingRule (serial : String) : AdbM (Except AdbError Unit) := do
  match ← run (listArgs serial) with
  | none => return .error .unavailable
  | some output =>
      return rejectRules reverseSpec
        ((TextFields.lines output).filter fun line => TextFields.trim line ≠ "")

def launchAndroidUnwrap (serial : String) : AdbM (Except AdbError Unit) := do
  match ← run (launchArgs serial) with
  | none => return .error .appLaunch
  | some _ => return .ok ()

def removeReverseRule (serial : String) : AdbM (Except AdbError Unit) := do
  match ← run (removeArgs serial) with
  | none => return .error .reverseRule
  | some _ => return .ok ()

def cleanupCreatedRule (serial : String) (guard : Option CleanupGuardian) : AdbM PUnit := do
  match ← removeReverseRule serial with
  | .error _ => return ()
  | .ok _ =>
      match guard with
      | none => return ()
      | some guard =>
          let _ ← guard.disarm
          return ()

/-- Accept a peer, for the polls the deadline leaves. -/
def acceptPolling (polls : ℕ) : AdbM (Except AdbError IpAddr) := do
  match ← Interaction.query Query.accept with
  | .peer ip => return .ok ip
  | .failed => return .error .unavailable
  | .wouldBlock =>
      match polls with
      | 0 => return .error .connectionTimeout
      | polls + 1 => acceptPolling polls

def acceptBefore : AdbM (Except AdbError IpAddr) := do
  let polls ← Interaction.query Query.deadline
  acceptPolling polls

def configureStream (serial : String) (limits : TransportLimits) :
    AdbM (Except AdbError DesktopStreamSession) := do
  match ← Interaction.query (Query.configure .nonblocking) with
  | none => return .error .unavailable
  | some _ =>
  match ← Interaction.query (Query.configure .readTimeout) with
  | none => return .error .unavailable
  | some _ =>
  match ← Interaction.query (Query.configure .writeTimeout) with
  | none => return .error .unavailable
  | some _ =>
  match ← ensureSameOnlineDevice serial with
  | .error failure => return .error failure
  | .ok _ =>
      let sessionId ← Interaction.query Query.drawSessionId
      return (DesktopStreamSession.new sessionId limits).mapError fun _ => .transport

structure AdbReverseSession where
  serial : String
  stream : DesktopStreamSession
  cleanupGuard : Option CleanupGuardian
  ruleActive : Bool
  closed : Bool

namespace AdbReverseSession

/-- An exit of `connect` after the rule was asked for. -/
def abandon (serial : String) (guard : Option CleanupGuardian) (failure : AdbError) :
    AdbM (Except AdbError AdbReverseSession) := do
  cleanupCreatedRule serial guard
  return .error failure

/-- `connect` from the peer it accepts on. -/
def adopt (serial : String) (guard : Option CleanupGuardian) (limits : TransportLimits) :
    AdbM (Except AdbError AdbReverseSession) := do
  match ← acceptBefore with
  | .error failure => abandon serial guard failure
  | .ok ip =>
      if ¬ ip.isLoopback then abandon serial guard .invalidPeer
      else
        match ← configureStream serial limits with
        | .error failure => abandon serial guard failure
        | .ok stream => return .ok ⟨serial, stream, guard, true, false⟩

/-- `connect` from the reverse command on. -/
def openRule (serial desktopSpec : String) (guard : Option CleanupGuardian) (purpose : SessionPurpose)
    (limits : TransportLimits) : AdbM (Except AdbError AdbReverseSession) := do
  match ← run (createArgs serial desktopSpec) with
  | none => abandon serial guard .reverseRule
  | some _ =>
      if purpose = .unwrap then
        match ← launchAndroidUnwrap serial with
        | .error _ => abandon serial guard .appLaunch
        | .ok _ => adopt serial guard limits
      else adopt serial guard limits

def connect (requestedSerial : Option String) (purpose : SessionPurpose) (limits : TransportLimits) :
    AdbM (Except AdbError AdbReverseSession) := do
  match ← selectDevice requestedSerial with
  | .error failure => return .error failure
  | .ok serial =>
  match ← rejectExistingRule serial with
  | .error failure => return .error failure
  | .ok _ =>
  match ← Interaction.query Query.bindListener with
  | none => return .error .unavailable
  | some port =>
  match ← Interaction.query (Query.armCleanupGuard serial) with
  | none => return .error .reverseRule
  | some armed =>
      openRule serial (specOf port) (if armed then some ⟨true, true⟩ else none) purpose limits

def removeRule (s : AdbReverseSession) : AdbM (Except AdbError Unit × AdbReverseSession) := do
  if ¬ s.ruleActive then return (.ok (), s)
  else
    match ← removeReverseRule s.serial with
    | .error failure => return (.error failure, s)
    | .ok _ =>
        match s.cleanupGuard with
        | none => return (.ok (), { s with ruleActive := false })
        | some guard =>
            let disarmed ← guard.disarm
            return (okOr disarmed.1 .reverseRule,
              { s with ruleActive := false, cleanupGuard := some disarmed.2 })

def exchange (s : AdbReverseSession) (purpose : SessionPurpose) (request : List Byte) :
    AdbM (Except TransportError (List Byte) × AdbReverseSession) := do
  if s.closed then return (.error .sessionClosed, s)
  else
    let stream ← Interaction.query (Query.stream purpose request)
    let response := s.stream.exchange purpose request stream
    let deviceUnchanged ← ensureSameOnlineDevice s.serial
    let ruleRemoved ← { s with closed := true, stream := response.2 }.removeRule
    return (if deviceUnchanged.isOk ∧ ruleRemoved.1.isOk then response.1 else .error .io, ruleRemoved.2)

def cancel (s : AdbReverseSession) : AdbM AdbReverseSession := do
  let ruleRemoved ← { s with closed := true, stream := s.stream.cancel }.removeRule
  return ruleRemoved.2

def drop (s : AdbReverseSession) : AdbM AdbReverseSession := do
  let ruleRemoved ← { s with stream := s.stream.cancel }.removeRule
  return ruleRemoved.2

inductive Operation
  | exchange (purpose : SessionPurpose) (request : List Byte)
  | cancel
  | drop
  deriving DecidableEq

/-- What an operation returns, if anything. -/
def perform (s : AdbReverseSession) :
    Operation → AdbM (Option (Except TransportError (List Byte)) × AdbReverseSession)
  | .exchange purpose request => do
      let outcome ← s.exchange purpose request
      return (some outcome.1, outcome.2)
  | .cancel => do
      let s ← s.cancel
      return (none, s)
  | .drop => do
      let s ← s.drop
      return (none, s)

end AdbReverseSession

section Guard

/-- Try to remove the rule, for the retries the deadline leaves. -/
def removeRetrying (serial : String) (retries : ℕ) : AdbM (Except Unit Unit) := do
  match ← removeReverseRule serial with
  | .ok _ => return .ok ()
  | .error _ =>
      match retries with
      | 0 => return .error ()
      | retries + 1 => removeRetrying serial retries

def removeReverseRuleAfterParentExit (serial : String) : AdbM (Except Unit Unit) := do
  let retries ← Interaction.query Query.deadline
  removeRetrying serial retries

/-- The guard process: it goes away on the byte `D` and else removes the rule. -/
def cleanupGuardFromReader (serial : String) : AdbM (Except Unit Unit) := do
  if ¬ validSerial serial then return .error ()
  else
    match ← Interaction.query Query.readSignal with
    | .byte b => if b = 68 then return .ok () else removeReverseRuleAfterParentExit serial
    | .closed => removeReverseRuleAfterParentExit serial
    | .failed => removeReverseRuleAfterParentExit serial

end Guard

end AgePluginPhone.Desktop.Adb
