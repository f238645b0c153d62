import AgePluginPhone.Desktop.AdbReverse

/-!
# Two sessions with one device

Two desktop processes, each with a session and the cleanup guard it arms, give ADB commands for the
reverse rule of one device in any order. A process may stop anywhere.
-/

namespace AgePluginPhone.Desktop.Adb

open Library AgePluginPhone.Core Transport Interaction

section Rules

/-- What a command asks of the reverse rule of the device that both sessions select. -/
inductive RuleCommand
  | create (desktopSpec : String)
  | remove
  | list
  | other
  deriving DecidableEq

def ruleCommand : List String → RuleCommand
  | ["-s", _, "reverse", "--list"] => .list
  | ["-s", _, "reverse", phoneSpec, desktopSpec] =>
      if phoneSpec = "--remove" then if desktopSpec = reverseSpec then .remove else .other
      else if phoneSpec = reverseSpec then .create desktopSpec
      else .other
  | _ => .other

def Query.command : Query → RuleCommand
  | .run args => ruleCommand args
  | _ => .other

inductive Side
  | first
  | second
  deriving DecidableEq

def Side.other : Side → Side
  | .first => .second
  | .second => .first

/-- The reverse rule of the device, with the session that created it. -/
abbrev Rule := Option (Side × String)

/-- The lines `reject_existing_rule` looks at. -/
def ruleLines (output : String) : List String :=
  (TextFields.lines output).filter fun line => TextFields.trim line ≠ ""

/-- A listing without a rule for the phone port. -/
def passesCheck : Event → Bool
  | ⟨.run args, some output⟩ =>
      ruleCommand args = .list && (rejectRules reverseSpec (ruleLines output)).isOk
  | _ => false

/-- What a device can answer. A command that succeeds has taken effect, one that fails may have, and
a listing that succeeds has a line for the rule. -/
def Reported (rule : Rule) : Event → Bool → Prop
  | ⟨.run args, answer⟩, taken =>
      match ruleCommand args with
      | .create _ => answer ≠ none → taken = true
      | .remove => answer ≠ none → taken = true
      | .list => ∀ output, answer = some output →
          ∀ owner desktopSpec, rule = some (owner, desktopSpec) →
            ∃ line ∈ ruleLines output, ∃ transport,
              TextFields.splitWhitespace line = [transport, reverseSpec, desktopSpec]
      | .other => True
  | _, _ => True

/-- A rule replaces the one for the same phone port. -/
def ruleAfter (rule : Rule) (side : Side) (command : RuleCommand) (taken : Bool) : Rule :=
  match command with
  | .create desktopSpec => if taken then some (side, desktopSpec) else rule
  | .remove => if taken then none else rule
  | _ => rule

end Rules

section Processes

def performAll (s : AdbReverseSession) : List AdbReverseSession.Operation → AdbM PUnit
  | [] => return ()
  | operation :: operations => do
      let outcome ← s.perform operation
      performAll outcome.2 operations

/-- What a process uses a session for. -/
structure Plan where
  requestedSerial : Option String
  purpose : SessionPurpose
  limits : TransportLimits
  operations : List AdbReverseSession.Operation

/-- A session from `connect` to the last operation on it. -/
def session (plan : Plan) : AdbM PUnit := do
  match ← AdbReverseSession.connect plan.requestedSerial plan.purpose plan.limits with
  | .error _ => return ()
  | .ok s => performAll s plan.operations

def guardProcess (serial : String) : AdbM PUnit := do
  let _ ← cleanupGuardFromReader serial
  return ()

/-- A session and its guard, by the programs still to be run. The session has passed its check for
an existing rule or not, and uses a rule from its creation until it asks for its removal. -/
structure Party where
  main : AdbM PUnit
  guard : Option (AdbM PUnit)
  checked : Bool
  uses : Bool

def guardAfter (guard : Option (AdbM PUnit)) : Event → Option (AdbM PUnit)
  | ⟨.armCleanupGuard serial, some true⟩ => some (guardProcess serial)
  | _ => guard

def usesAfter (uses : Bool) (command : RuleCommand) (taken : Bool) : Bool :=
  match command with
  | .create _ => taken
  | .remove => false
  | _ => uses

structure World where
  parties : Side → Party
  rule : Rule

namespace World

def start (plans : Side → Plan) : World where
  parties side := ⟨session (plans side), none, false, false⟩
  rule := none

def setParty (w : World) (side : Side) (p : Party) : World :=
  { w with parties := Function.update w.parties side p }

def afterMain (w : World) (side : Side) (event : Event) (taken : Bool)
    (next : AdbM PUnit) : World :=
  let p := w.parties side
  { w.setParty side
      { main := next
        guard := guardAfter p.guard event
        checked := p.checked || passesCheck event
        uses := usesAfter p.uses (event.1.command) taken } with
    rule := ruleAfter w.rule side (event.1.command) taken }

def afterGuard (w : World) (side : Side) (event : Event) (taken : Bool)
    (next : AdbM PUnit) : World :=
  { w.setParty side { w.parties side with guard := some next } with
    rule := ruleAfter w.rule side (event.1.command) taken }

def afterExit (w : World) (side : Side) : World :=
  w.setParty side { w.parties side with main := pure (), uses := false }

end World

inductive Role
  | main
  | guard
  deriving DecidableEq

inductive Move
  | act (side : Side) (role : Role) (event : Event) (taken : Bool)
  | exit (side : Side)

/-- A program's next query with an answer, or the end of a session's process. What a guard reads is
left open. -/
inductive Step (w : World) : Move → World → Prop
  | main {side : Side} {query : Query} {next : query.Answer → AdbM PUnit} (answer : query.Answer)
      (taken : Bool) : (w.parties side).main = .ask query next →
      Reported w.rule ⟨query, answer⟩ taken →
      Step w (.act side .main ⟨query, answer⟩ taken)
        (w.afterMain side ⟨query, answer⟩ taken (next answer))
  | guard {side : Side} {query : Query} {next : query.Answer → AdbM PUnit} (answer : query.Answer)
      (taken : Bool) : (w.parties side).guard = some (.ask query next) →
      Reported w.rule ⟨query, answer⟩ taken →
      Step w (.act side .guard ⟨query, answer⟩ taken)
        (w.afterGuard side ⟨query, answer⟩ taken (next answer))
  | exit (side : Side) : Step w (.exit side) (w.afterExit side)

/-- The states of the runs whose moves are all allowed. -/
inductive Run (Allowed : World → Move → Prop) (start : World) : World → Prop
  | start : Run Allowed start start
  | step {w w' : World} {m : Move} : Run Allowed start w → Allowed w m → Step w m w' →
      Run Allowed start w'

end Processes

end AgePluginPhone.Desktop.Adb
