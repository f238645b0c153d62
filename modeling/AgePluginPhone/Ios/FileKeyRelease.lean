import AgePluginPhone.Ios.UnwrapRequest

/-!
# Release of file keys on iOS

The unwrap operations of `PhoneIdentityPlugin` as steps of its crypto queue, among the blocks that
the rest of the plugin runs on its state queue, the deadline timer and the invalidations that
follow. The crypto queue is serial: one operation runs at a time. Clock readings, and whether a
key operation or a signature succeeds, are inputs of a step: an invalidated context makes a key
operation fail, return or succeed, at any later time.
-/

namespace AgePluginPhone.Ios

open Library StorageM

namespace AuthenticationDeadline

inductive Status
  | active
  | completed
  | invalidated
  deriving DecidableEq

end AuthenticationDeadline

structure AuthenticationDeadline where
  status : AuthenticationDeadline.Status
  started : TimeInterval
  deadline : TimeInterval

namespace AuthenticationDeadline

def start (timeout now : TimeInterval) : AuthenticationDeadline :=
  ⟨.active, now, now + timeout⟩

/-- `complete`, and whether it accepts. A reading that is not finite is `none`. -/
def complete (d : AuthenticationDeadline) (now : Option TimeInterval) :
    AuthenticationDeadline × Bool :=
  if d.status = .active then
    if now.any fun current => d.started ≤ current ∧ current < d.deadline then
      ({ d with status := .completed }, true)
    else ({ d with status := .invalidated }, false)
  else (d, false)

def invalidate (d : AuthenticationDeadline) : AuthenticationDeadline :=
  if d.status = .active then { d with status := .invalidated } else d

end AuthenticationDeadline

namespace PhoneIdentityPlugin

/-- A `PhoneStreamSession` and an `LAContext`, numbered as they are created. -/
abbrev Session := ℕ

abbrev Context := ℕ

/-- `unwrapPhone`, or `handleAutomaticWifiUnwrap` for its session. -/
inductive Origin
  | qr
  | wifi (session : Session)
  deriving DecidableEq

variable (K : CryptoKit)

inductive Job
  | unwrap (origin : Origin) (message : List Byte)
  | doctorRunAgreement

structure Authentication where
  origin : Origin
  request : VerifiedUnwrapRequest K
  context : Context
  deadline : AuthenticationDeadline

/-- What the running operation does next. From `entered` to `clearing` it is inside
`openAuthenticatedFileKey`. -/
inductive Phase
  /-- `verifyAndConsume` at the current time -/
  | verifying (origin : Origin) (message : List Byte)
  /-- the first guard on the expiry -/
  | entered (origin : Origin) (request : VerifiedUnwrapRequest K)
  /-- the guard on the owner session -/
  | timely (origin : Origin) (request : VerifiedUnwrapRequest K)
  /-- the new context and the block that installs it -/
  | owned (origin : Origin) (request : VerifiedUnwrapRequest K)
  /-- the remaining time and the deadline -/
  | installed (origin : Origin) (request : VerifiedUnwrapRequest K) (context : Context)
  /-- the block that clears the slot where no time remains -/
  | late
  /-- the hardware key operation -/
  | armed (a : Authentication K)
  /-- `complete` after a failed key operation -/
  | failed (a : Authentication K)
  /-- `complete` after a successful one -/
  | keyed (a : Authentication K)
  /-- the last guard on the expiry -/
  | completed (a : Authentication K)
  /-- the block that compares the slot with the context -/
  | unexpired (a : Authentication K)
  /-- the invalidations of the `defer` block -/
  | leaving (a : Authentication K) (opened : Bool)
  /-- the block of the `defer` block -/
  | clearing (a : Authentication K) (opened : Bool)
  /-- `signingKey` -/
  | released (origin : Origin) (request : VerifiedUnwrapRequest K)
  /-- `sealResponse`, on Wi-Fi inside a block that checks the session -/
  | signing (origin : Origin) (request : VerifiedUnwrapRequest K)
  /-- the response is presented or sent -/
  | responding (request : VerifiedUnwrapRequest K)
  /-- the doctor's context and the block that installs it -/
  | probing
  /-- the doctor's agreement, and the invalidation of its context -/
  | probe (context : Context)
  /-- the block that clears the slot -/
  | probed

structure Plugin where
  wifiSession : Option Session
  activeAuthenticationContext : Option Context
  /-- How many sessions and contexts have been created. -/
  sessions : ℕ
  contexts : ℕ
  invalidated : List Context
  /-- Contexts taken from the slot, or past their deadline, and not invalidated yet. -/
  revoking : List Context
  files : Directory
  queue : List Job
  running : Option (Phase K)

/-- What happened, in order. -/
inductive Entry
  | consumed (request : VerifiedUnwrapRequest K)
  | installed (context : Context)
  | keyCompleted (context : Context)
  | deadlineCompleted (context : Context)
  | withinExpiry (now : U64)
  | slotHeld (context : Context)
  | sealed (origin : Origin) (request : VerifiedUnwrapRequest K) (wifiSession : Option Session)
  | responded (request : VerifiedUnwrapRequest K)
  | background
  | disconnected (session : Session)
  | stopped

/-- What the environment gives the next action of the crypto queue. -/
structure Readings where
  wall : Option TimeInterval
  uptime : Option TimeInterval
  faults : List Fault
  succeeds : Bool
  /-- whether a failing `identityKey` invalidates its context -/
  invalidates : Bool

inductive Event
  /-- the first block of `applicationDidEnterBackground` -/
  | applicationDidEnterBackground
  /-- the block of `acceptAutomaticWifi` that installs a new session -/
  | acceptAutomaticWifi
  /-- the block of `automaticWifiDisconnected` -/
  | automaticWifiDisconnected (session : Session)
  /-- the block of `stopWifiResources`, whoever calls it -/
  | stopWifiResources
  /-- the invalidation of a context taken before -/
  | revoke (context : Context)
  /-- the timer of the running operation's deadline -/
  | deadlineTimer
  | submit (job : Job)
  /-- the crypto queue starts its next operation -/
  | start
  /-- the next action of the running operation -/
  | work (readings : Readings)

variable {K}

namespace Phase

def authentication : Phase K → Option (Authentication K)
  | armed a | failed a | keyed a | completed a | unexpired a | leaving a _ => some a
  | _ => none

def setDeadline (d : AuthenticationDeadline) : Phase K → Phase K
  | armed a => armed { a with deadline := d }
  | failed a => failed { a with deadline := d }
  | keyed a => keyed { a with deadline := d }
  | completed a => completed { a with deadline := d }
  | unexpired a => unexpired { a with deadline := d }
  | leaving a opened => leaving { a with deadline := d } opened
  | phase => phase

def first : Job → Phase K
  | .unwrap origin message => verifying origin message
  | .doctorRunAgreement => probing

end Phase

namespace Plugin

def initial (files : Directory) : Plugin K := ⟨none, none, 0, 0, [], [], files, [], none⟩

def continueWith (s : Plugin K) (phase : Phase K) : Plugin K := { s with running := some phase }

def finish (s : Plugin K) : Plugin K := { s with running := none }

def invalidate (s : Plugin K) (context : Context) : Plugin K :=
  { s with invalidated := context :: s.invalidated }

/-- Take the context out of the slot, to invalidate it after the block. -/
def takeContext (s : Plugin K) : Plugin K :=
  { s with
    activeAuthenticationContext := none
    revoking := s.activeAuthenticationContext.toList ++ s.revoking }

def clearContext (s : Plugin K) : Plugin K := { s with activeAuthenticationContext := none }

/-- A new context, put into the slot. -/
def installContext (s : Plugin K) : Plugin K :=
  { s with activeAuthenticationContext := some s.contexts, contexts := s.contexts + 1 }

/-- The `revoke` callback of a deadline that `complete` found expired. -/
def revokeExpired (s : Plugin K) (a : Authentication K) (deadline : AuthenticationDeadline) :
    Plugin K :=
  { s with
    invalidated := if a.deadline.status = .active ∧ deadline.status = .invalidated then
      a.context :: s.invalidated else s.invalidated }

def ownsSession (s : Plugin K) : Origin → Bool
  | .qr => true
  | .wifi session => s.wifiSession = some session

/-- The next action of the running operation, and what it adds to the log. -/
def work (s : Plugin K) (r : Readings) : Phase K → Plugin K × Option (Entry K)
  | .verifying origin message =>
      match ProtocolBounds.unixTime r.wall with
      | .error _ => (s.finish, none)
      | .ok now =>
          let outcome := verifyAndConsume K message now s.files r.faults
          let s := { s with files := outcome.store }
          match outcome.value with
          | .ok request => (s.continueWith (.entered origin request), some (.consumed request))
          | .error _ => (s.finish, none)
  | .entered origin request =>
      if ((ProtocolBounds.unixTime r.wall).toOption.any fun now => now ≤ request.expiresAtUnix) then
        (s.continueWith (.timely origin request), none)
      else (s.finish, none)
  | .timely origin request =>
      if s.ownsSession origin then (s.continueWith (.owned origin request), none)
      else (s.finish, none)
  | .owned origin request =>
      if s.ownsSession origin then
        (s.installContext.continueWith (.installed origin request s.contexts),
          some (.installed s.contexts))
      else
        (({ s with contexts := s.contexts + 1 }.invalidate s.contexts).finish, none)
  | .installed origin request context =>
      match r.wall.map fun now => (request.expiresAtUnix.val : TimeInterval) + 1 - now,
        r.uptime with
      | some remaining, some uptime =>
          if 0 < remaining then
            (s.continueWith (.armed ⟨origin, request, context, .start (min 60 remaining) uptime⟩), none)
          else ((s.invalidate context).continueWith .late, none)
      | _, _ => ((s.invalidate context).continueWith .late, none)
  | .late => (s.clearContext.finish, none)
  | .armed a =>
      if r.succeeds then (s.continueWith (.keyed a), some (.keyCompleted a.context))
      else ((if r.invalidates then s.invalidate a.context else s).continueWith (.failed a), none)
  | .failed a =>
      let (deadline, _) := a.deadline.complete r.uptime
      ((s.revokeExpired a deadline).continueWith (.leaving { a with deadline } false), none)
  | .keyed a =>
      let (deadline, accepted) := a.deadline.complete r.uptime
      if accepted then
        (s.continueWith (.completed { a with deadline }), some (.deadlineCompleted a.context))
      else ((s.revokeExpired a deadline).continueWith (.leaving { a with deadline } false), none)
  | .completed a =>
      match ProtocolBounds.unixTime r.wall with
      | .error _ => (s.continueWith (.leaving a false), none)
      | .ok now =>
          if now ≤ a.request.expiresAtUnix then
            (s.continueWith (.unexpired a), some (.withinExpiry now))
          else (s.continueWith (.leaving a false), none)
  | .unexpired a =>
      if s.activeAuthenticationContext = some a.context then
        (s.continueWith (.leaving a true), some (.slotHeld a.context))
      else (s.continueWith (.leaving a false), none)
  | .leaving a opened =>
      ((s.invalidate a.context).continueWith
        (.clearing { a with deadline := a.deadline.invalidate } opened), none)
  | .clearing a opened =>
      let s := if s.activeAuthenticationContext = some a.context then s.clearContext else s
      (if opened then s.continueWith (.released a.origin a.request) else s.finish, none)
  | .released origin request =>
      if r.succeeds then (s.continueWith (.signing origin request), none) else (s.finish, none)
  | .signing origin request =>
      if s.ownsSession origin then
        (if r.succeeds then s.continueWith (.responding request) else s.finish,
          some (.sealed origin request s.wifiSession))
      else (s.finish, none)
  | .responding request => (s.finish, if r.succeeds then some (.responded request) else none)
  | .probing => (s.installContext.continueWith (.probe s.contexts), none)
  | .probe context => ((s.invalidate context).continueWith .probed, none)
  | .probed => (s.clearContext.finish, none)

def act (s : Plugin K) : Event → Plugin K × Option (Entry K)
  | .applicationDidEnterBackground => (s.takeContext, some .background)
  | .acceptAutomaticWifi =>
      ({ s with wifiSession := some s.sessions, sessions := s.sessions + 1 }, none)
  | .automaticWifiDisconnected session =>
      (if s.wifiSession = some session then { s.takeContext with wifiSession := none } else s,
        some (.disconnected session))
  | .stopWifiResources =>
      (if s.wifiSession = none then s else { s.takeContext with wifiSession := none }, some .stopped)
  | .revoke context =>
      (if context ∈ s.revoking then { s.invalidate context with revoking := s.revoking.erase context }
        else s, none)
  | .deadlineTimer =>
      match s.running.bind Phase.authentication with
      | some a =>
          if a.deadline.status = .active then
            ({ s with
              running := s.running.map (·.setDeadline a.deadline.invalidate)
              revoking := a.context :: s.revoking }, none)
          else (s, none)
      | none => (s, none)
  | .submit job =>
      match job with
      | .unwrap (.wifi session) _ =>
          (if session < s.sessions then { s with queue := s.queue ++ [job] } else s, none)
      | _ => ({ s with queue := s.queue ++ [job] }, none)
  | .start =>
      match s.running, s.queue with
      | none, job :: queue => ({ s with queue, running := some (Phase.first job) }, none)
      | _, _ => (s, none)
  | .work readings =>
      match s.running with
      | some phase => s.work readings phase
      | none => (s, none)

def step (s : Plugin K) (e : Event) : Option (Plugin K) := some (s.act e).1

def emit (s : Plugin K) (e : Event) : Option (Entry K) := (s.act e).2

end Plugin

end PhoneIdentityPlugin

end AgePluginPhone.Ios
