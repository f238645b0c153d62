import AgePluginPhone.Desktop.AdbReverse
import AgePluginPhone.Library.Splits

/-!
# The reverse rule stays guarded

Whatever the host answers, the guard is told to go away only after a removal of the rule has
succeeded, and every way out of a session tries that removal.
-/

namespace AgePluginPhone.Desktop.Adb

open Library Cbor AgePluginPhone.Core Transport Interaction

/-- Neither the creation nor a removal of a rule, nor the end of a guard. -/
def Silent (events : List Event) : Prop :=
  ∀ e ∈ events, (∀ serial desktopSpec, e.1 ≠ .run (createArgs serial desktopSpec)) ∧
    (∀ serial, e.1 ≠ .run (removeArgs serial)) ∧ e.1 ≠ .writeDisarm

/-- The guard's part of a clean-up. -/
def Disarming (events : List Event) : Prop :=
  ∀ e ∈ events, e.1 = .writeDisarm ∨ e.1 = .deadline ∨ e.1 = .tryWait

/-- A removal, and after its success what the guard is told. -/
def Cleanup (serial : String) (events : List Event) : Prop :=
  ∃ answer rest, events = ⟨.run (removeArgs serial), answer⟩ :: rest ∧ Disarming rest ∧
    (answer = none → rest = [])

/-- The serial is listed as an online device. -/
def Online (serial : String) (events : List Event) : Prop :=
  ∃ output devices, ⟨.run ["devices"], some output⟩ ∈ events ∧ parseDevices output = .ok devices ∧
    (⟨serial, "device"⟩ : Device) ∈ devices

section Silence

variable {events others : List Event}

theorem Silent.append (h : Silent events) (h' : Silent others) : Silent (events ++ others) := by
  intro e he
  rcases List.mem_append.mp he with he | he
  · exact h e he
  · exact h' e he

theorem Silent.cons {e : Event} (he : Silent [e]) (h : Silent events) : Silent (e :: events) :=
  Silent.append he h

theorem silent_nil : Silent [] := by
  intro e he
  cases he

/-- A query other than a command and other than the guard's end. -/
theorem silent_query {query : Query} {answer : query.Answer} (hrun : ∀ args, query ≠ .run args)
    (hdisarm : query ≠ .writeDisarm) : Silent [⟨query, answer⟩] := by
  intro e he
  obtain rfl := List.mem_singleton.mp he
  exact ⟨fun _ _ => hrun _, fun _ => hrun _, hdisarm⟩

theorem silent_run {args : List String} {answer : (Query.run args).Answer}
    (hcreate : ∀ serial desktopSpec, args ≠ createArgs serial desktopSpec)
    (hremove : ∀ serial, args ≠ removeArgs serial) : Silent [⟨.run args, answer⟩] := by
  intro e he
  obtain rfl := List.mem_singleton.mp he
  refine ⟨?_, ?_, Query.noConfusion⟩
  · intro serial desktopSpec h
    exact hcreate serial desktopSpec (Query.run.inj h)
  · intro serial h
    exact hremove serial (Query.run.inj h)

theorem silent_devices {answer : Option String} : Silent [⟨.run ["devices"], answer⟩] :=
  silent_run (by simp [createArgs]) (by simp [removeArgs])

theorem reverseSpec_ne_remove : reverseSpec ≠ "--remove" := by
  intro h
  have hhead := congrArg (fun s => s.toList.head?) h
  simp [reverseSpec, specOf] at hhead

end Silence

section Parts

variable {events : List Event} {serial : String} {requestedSerial : Option String}

theorem listDevices_runs {result : Except AdbError (List Device)}
    (h : listDevices.Runs events result) : ∃ answer : Option String,
      events = [⟨.run ["devices"], answer⟩] ∧
        ∀ devices, result = .ok devices → ∃ output, answer = some output ∧
          parseDevices output = .ok devices := by
  obtain ⟨answer, after, rfl, hafter⟩ := runs_query_bind_iff.mp h
  refine ⟨answer, ?_⟩
  cases answer with
  | none =>
      obtain ⟨rfl, rfl⟩ := runs_pure_iff.mp hafter
      exact ⟨rfl, fun devices hdevices => by cases hdevices⟩
  | some output =>
      obtain ⟨rfl, rfl⟩ := runs_pure_iff.mp hafter
      exact ⟨rfl, fun devices hdevices => ⟨output, rfl, hdevices⟩⟩

theorem parseDevice_valid {line : String} {device : Device} (h : parseDevice line = .ok device) :
    validSerial device.serial = true := by
  unfold parseDevice at h
  split at h
  · split_ifs at h with hvalid
    obtain rfl := Except.ok.inj h
    exact hvalid
  · cases h

theorem parseDevices_valid {output : String} {devices : List Device}
    (h : parseDevices output = .ok devices) : ∀ device ∈ devices, validSerial device.serial = true := by
  unfold parseDevices at h
  split at h
  · cases h
  · split_ifs at h
    intro device hdevice
    obtain ⟨line, -, hline⟩ := exists_of_mem_mapM h device hdevice
    exact parseDevice_valid hline

/-- A device that is chosen is online. -/
theorem choose_eq_ok {devices : List Device} (h : choose requestedSerial devices = .ok serial) :
    (⟨serial, "device"⟩ : Device) ∈ devices := by
  unfold choose at h
  split at h
  · rename_i name
    split_ifs at h
    cases hfound : devices.find? fun device => device.serial = name ∧ device.state = "device" with
    | none =>
        rw [hfound] at h
        cases h
    | some device =>
    rw [hfound] at h
    obtain rfl := Except.ok.inj h
    have hmem := List.mem_of_find?_eq_some hfound
    have hstate : device.state = "device" := by
      have hprop := List.find?_some hfound
      simpa using (of_decide_eq_true hprop).2
    obtain ⟨found, state⟩ := device
    subst hstate
    exact hmem
  · split at h
    · cases h
    · rename_i device
      split_ifs at h with hstate
      obtain rfl := Except.ok.inj h
      obtain ⟨name, state⟩ := device
      subst hstate
      exact List.mem_cons_self
    · cases h

theorem selectDevice_runs {result : Except AdbError String}
    (h : (selectDevice requestedSerial).Runs events result) : Silent events ∧
      ∀ serial, result = .ok serial → Online serial events ∧ validSerial serial = true := by
  obtain ⟨own, devices, others, hlist, hrest, rfl⟩ := runs_bind_iff.mp h
  obtain ⟨rfl, rfl⟩ := runs_pure_iff.mp hrest
  obtain ⟨answer, rfl, hdevices⟩ := listDevices_runs hlist
  refine ⟨silent_devices, ?_⟩
  intro serial hserial
  obtain ⟨found, rfl, hchoose⟩ := bind_eq_ok.mp hserial
  obtain ⟨output, rfl, hparse⟩ := hdevices found rfl
  have hmem := choose_eq_ok hchoose
  exact ⟨⟨output, found, by simp, hparse, hmem⟩, parseDevices_valid hparse _ hmem⟩

theorem ensureSameOnlineDevice_runs {result : Except AdbError Unit}
    (h : (ensureSameOnlineDevice serial).Runs events result) :
    Silent events ∧ (result = .ok () → Online serial events) := by
  obtain ⟨own, selected, others, hselect, hrest, rfl⟩ := runs_bind_iff.mp h
  obtain ⟨hsilent, honline⟩ := selectDevice_runs hselect
  cases selected with
  | error failure =>
      obtain ⟨rfl, rfl⟩ := runs_pure_iff.mp hrest
      rw [List.append_nil]
      exact ⟨hsilent, fun hresult => by cases hresult⟩
  | ok found =>
      obtain ⟨rfl, rfl⟩ := runs_pure_iff.mp hrest
      rw [List.append_nil]
      refine ⟨hsilent, fun hresult => ?_⟩
      split_ifs at hresult with hsame
      exact hsame ▸ (honline found rfl).1

theorem rejectExistingRule_runs {result : Except AdbError Unit}
    (h : (rejectExistingRule serial).Runs events result) : Silent events := by
  obtain ⟨answer, after, rfl, hafter⟩ := runs_query_bind_iff.mp h
  have hlist : Silent [⟨.run (listArgs serial), answer⟩] :=
    silent_run (by simp [createArgs, listArgs]) (by simp [removeArgs, listArgs])
  cases answer with
  | none =>
      obtain ⟨rfl, -⟩ := runs_pure_iff.mp hafter
      exact hlist
  | some output =>
      obtain ⟨rfl, -⟩ := runs_pure_iff.mp hafter
      exact hlist

theorem launchAndroidUnwrap_runs {result : Except AdbError Unit}
    (h : (launchAndroidUnwrap serial).Runs events result) : Silent events := by
  obtain ⟨answer, after, rfl, hafter⟩ := runs_query_bind_iff.mp h
  have hlaunch : Silent [⟨.run (launchArgs serial), answer⟩] :=
    silent_run (by simp [createArgs, launchArgs]) (by simp [removeArgs, launchArgs])
  cases answer with
  | none =>
      obtain ⟨rfl, -⟩ := runs_pure_iff.mp hafter
      exact hlaunch
  | some output =>
      obtain ⟨rfl, -⟩ := runs_pure_iff.mp hafter
      exact hlaunch

theorem acceptPolling_runs {polls : ℕ} {result : Except AdbError IpAddr}
    (h : (acceptPolling polls).Runs events result) : Silent events := by
  have haccept {answer : Accepted} : Silent [⟨.accept, answer⟩] :=
    silent_query (by simp) (by simp)
  induction polls generalizing events with
  | zero =>
      unfold acceptPolling at h
      obtain ⟨answer, after, rfl, hafter⟩ := runs_query_bind_iff.mp h
      cases answer <;> (obtain ⟨rfl, -⟩ := runs_pure_iff.mp hafter) <;> exact haccept
  | succ polls ih =>
      unfold acceptPolling at h
      obtain ⟨answer, after, rfl, hafter⟩ := runs_query_bind_iff.mp h
      cases answer with
      | peer ip =>
          obtain ⟨rfl, -⟩ := runs_pure_iff.mp hafter
          exact haccept
      | failed =>
          obtain ⟨rfl, -⟩ := runs_pure_iff.mp hafter
          exact haccept
      | wouldBlock => exact haccept.cons (ih hafter)

theorem acceptBefore_runs {result : Except AdbError IpAddr} (h : acceptBefore.Runs events result) :
    Silent events := by
  obtain ⟨polls, after, rfl, hafter⟩ := runs_query_bind_iff.mp h
  exact (silent_query (by simp) (by simp)).cons (acceptPolling_runs hafter)

theorem configureStream_runs {limits : TransportLimits} {result : Except AdbError DesktopStreamSession}
    (h : (configureStream serial limits).Runs events result) : Silent events := by
  have hset {setting : StreamSetting} {answer : Option Unit} : Silent [⟨.configure setting, answer⟩] :=
    silent_query (by simp) (by simp)
  have hid {sessionId : Bytes 16} : Silent [⟨.drawSessionId, sessionId⟩] :=
    silent_query (by simp) (by simp)
  obtain ⟨nonblocking, after, rfl, hread⟩ := runs_query_bind_iff.mp h
  apply hset.cons
  cases nonblocking with
  | none =>
      obtain ⟨rfl, -⟩ := runs_pure_iff.mp hread
      exact silent_nil
  | some _ =>
  obtain ⟨readTimeout, after, rfl, hwrite⟩ := runs_query_bind_iff.mp hread
  apply hset.cons
  cases readTimeout with
  | none =>
      obtain ⟨rfl, -⟩ := runs_pure_iff.mp hwrite
      exact silent_nil
  | some _ =>
  obtain ⟨writeTimeout, after, rfl, honline⟩ := runs_query_bind_iff.mp hwrite
  apply hset.cons
  cases writeTimeout with
  | none =>
      obtain ⟨rfl, -⟩ := runs_pure_iff.mp honline
      exact silent_nil
  | some _ =>
  obtain ⟨own, online, others, hensure, hsession, rfl⟩ := runs_bind_iff.mp honline
  apply (ensureSameOnlineDevice_runs hensure).1.append
  cases online with
  | error failure =>
      obtain ⟨rfl, -⟩ := runs_pure_iff.mp hsession
      exact silent_nil
  | ok _ =>
      obtain ⟨sessionId, after, rfl, hnew⟩ := runs_query_bind_iff.mp hsession
      obtain ⟨rfl, -⟩ := runs_pure_iff.mp hnew
      exact hid

end Parts

section Cleanups

variable {events : List Event} {serial : String}

theorem disarming_nil : Disarming [] := by
  intro e he
  cases he

theorem Disarming.cons {e : Event} (he : e.1 = .writeDisarm ∨ e.1 = .deadline ∨ e.1 = .tryWait)
    (h : Disarming events) : Disarming (e :: events) :=
  List.forall_mem_cons.mpr ⟨he, h⟩

theorem waitForExit_runs {polls : ℕ} {result : Option Unit}
    (h : (waitForExit polls).Runs events result) : Disarming events := by
  have hwait {answer : Option Bool} {rest : List Event} (hrest : Disarming rest) :
      Disarming (⟨.tryWait, answer⟩ :: rest) := hrest.cons (Or.inr (Or.inr rfl))
  induction polls generalizing events with
  | zero =>
      unfold waitForExit at h
      obtain ⟨answer, after, rfl, hafter⟩ := runs_query_bind_iff.mp h
      rcases answer with _ | _ | _ <;> (obtain ⟨rfl, -⟩ := runs_pure_iff.mp hafter) <;>
        exact hwait disarming_nil
  | succ polls ih =>
      unfold waitForExit at h
      obtain ⟨answer, after, rfl, hafter⟩ := runs_query_bind_iff.mp h
      rcases answer with _ | _ | _
      · obtain ⟨rfl, -⟩ := runs_pure_iff.mp hafter
        exact hwait disarming_nil
      · exact hwait (ih hafter)
      · obtain ⟨rfl, -⟩ := runs_pure_iff.mp hafter
        exact hwait disarming_nil

theorem disarm_runs {guard : CleanupGuardian} {result : Option Unit × CleanupGuardian}
    (h : guard.disarm.Runs events result) : Disarming events := by
  unfold CleanupGuardian.disarm at h
  by_cases harmed : guard.armed = true
  · rw [if_neg (not_not.mpr harmed)] at h
    by_cases hinput : guard.input = true
    · rw [if_neg (not_not.mpr hinput)] at h
      obtain ⟨answer, after, rfl, hafter⟩ := runs_query_bind_iff.mp h
      apply Disarming.cons (Or.inl rfl)
      cases answer with
      | none =>
          obtain ⟨rfl, -⟩ := runs_pure_iff.mp hafter
          exact disarming_nil
      | some _ =>
          obtain ⟨polls, after, rfl, hwaiting⟩ := runs_query_bind_iff.mp hafter
          obtain ⟨own, exited, others, hwait, hrest, rfl⟩ := runs_bind_iff.mp hwaiting
          obtain ⟨rfl, -⟩ := runs_pure_iff.mp hrest
          rw [List.append_nil]
          exact (waitForExit_runs hwait).cons (Or.inr (Or.inl rfl))
    · rw [if_pos hinput] at h
      obtain ⟨rfl, -⟩ := runs_pure_iff.mp h
      exact disarming_nil
  · rw [if_pos harmed] at h
    obtain ⟨rfl, -⟩ := runs_pure_iff.mp h
    exact disarming_nil

theorem removeReverseRule_runs {result : Except AdbError Unit}
    (h : (removeReverseRule serial).Runs events result) : ∃ answer : Option String,
      events = [⟨.run (removeArgs serial), answer⟩] ∧ (result = .ok () ↔ answer ≠ none) := by
  obtain ⟨answer, after, rfl, hafter⟩ := runs_query_bind_iff.mp h
  refine ⟨answer, ?_⟩
  cases answer with
  | none =>
      obtain ⟨rfl, rfl⟩ := runs_pure_iff.mp hafter
      exact ⟨rfl, by simp⟩
  | some output =>
      obtain ⟨rfl, rfl⟩ := runs_pure_iff.mp hafter
      exact ⟨rfl, by simp⟩

theorem cleanupCreatedRule_runs {guard : Option CleanupGuardian} {result : PUnit}
    (h : (cleanupCreatedRule serial guard).Runs events result) : Cleanup serial events := by
  obtain ⟨own, removed, others, hremove, hrest, rfl⟩ := runs_bind_iff.mp h
  obtain ⟨answer, rfl, hanswer⟩ := removeReverseRule_runs hremove
  cases removed with
  | error failure =>
      obtain ⟨rfl, -⟩ := runs_pure_iff.mp hrest
      exact ⟨answer, [], rfl, disarming_nil, fun _ => rfl⟩
  | ok _ =>
      have hsome := hanswer.mp rfl
      cases guard with
      | none =>
          obtain ⟨rfl, -⟩ := runs_pure_iff.mp hrest
          exact ⟨answer, [], rfl, disarming_nil, fun _ => rfl⟩
      | some guard =>
          obtain ⟨own, disarmed, rest, hdisarm, hreturn, rfl⟩ := runs_bind_iff.mp hrest
          obtain ⟨rfl, -⟩ := runs_pure_iff.mp hreturn
          refine ⟨answer, own ++ [], rfl, ?_, fun hnone => absurd hnone hsome⟩
          rw [List.append_nil]
          exact disarm_runs hdisarm

end Cleanups

section Connecting

variable {events : List Event} {serial : String} {guard : Option CleanupGuardian}
  {limits : TransportLimits} {result : Except AdbError AdbReverseSession}

/-- How `connect` goes on after the reverse command. -/
inductive Adopted (serial : String) : List Event → Except AdbError AdbReverseSession → Prop
  | abandoned {between cleanup : List Event} {failure : AdbError} :
      Silent between → Cleanup serial cleanup → Adopted serial (between ++ cleanup) (.error failure)
  | connected {between : List Event} {session : AdbReverseSession} :
      Silent between → session.serial = serial → session.ruleActive = true →
      session.closed = false → Adopted serial between (.ok session)

theorem Adopted.after {between : List Event} (hbetween : Silent between)
    (h : Adopted serial events result) : Adopted serial (between ++ events) result := by
  cases h with
  | abandoned hsilent hcleanup =>
      rw [← List.append_assoc]
      exact .abandoned (hbetween.append hsilent) hcleanup
  | connected hsilent hserial hactive hopen =>
      exact .connected (hbetween.append hsilent) hserial hactive hopen

theorem abandon_runs {failure : AdbError}
    (h : (AdbReverseSession.abandon serial guard failure).Runs events result) :
    Adopted serial events result := by
  obtain ⟨own, _, others, hcleanup, hrest, rfl⟩ := runs_bind_iff.mp h
  obtain ⟨rfl, rfl⟩ := runs_pure_iff.mp hrest
  rw [List.append_nil]
  exact .abandoned silent_nil (cleanupCreatedRule_runs hcleanup)

theorem adopt_runs (h : (AdbReverseSession.adopt serial guard limits).Runs events result) :
    Adopted serial events result := by
  obtain ⟨own, accepted, others, haccept, hrest, rfl⟩ := runs_bind_iff.mp h
  apply Adopted.after (acceptBefore_runs haccept)
  cases accepted with
  | error failure => exact abandon_runs hrest
  | ok ip =>
      by_cases hloopback : ip.isLoopback = true
      · dsimp only at hrest
        rw [if_neg (not_not.mpr hloopback)] at hrest
        obtain ⟨own, configured, others, hconfigure, hlast, rfl⟩ := runs_bind_iff.mp hrest
        apply Adopted.after (configureStream_runs hconfigure)
        cases configured with
        | error failure => exact abandon_runs hlast
        | ok stream =>
            obtain ⟨rfl, rfl⟩ := runs_pure_iff.mp hlast
            exact .connected silent_nil rfl rfl rfl
      · dsimp only at hrest
        rw [if_pos hloopback] at hrest
        exact abandon_runs hrest

theorem openRule_runs {desktopSpec : String} {purpose : SessionPurpose}
    (h : (AdbReverseSession.openRule serial desktopSpec guard purpose limits).Runs events result) :
    ∃ created after, events = ⟨.run (createArgs serial desktopSpec), created⟩ :: after ∧
      Adopted serial after result := by
  obtain ⟨created, after, rfl, hafter⟩ := runs_query_bind_iff.mp h
  refine ⟨created, after, rfl, ?_⟩
  cases created with
  | none => exact abandon_runs hafter
  | some output =>
      cases purpose with
      | pairing => exact adopt_runs hafter
      | unwrap =>
          obtain ⟨own, launched, others, hlaunch, hrest, rfl⟩ := runs_bind_iff.mp hafter
          apply Adopted.after (launchAndroidUnwrap_runs hlaunch)
          cases launched with
          | error failure => exact abandon_runs hrest
          | ok _ => exact adopt_runs hrest

/-- `connect` fails before it asks for the rule, or asks for it once. -/
theorem connect_runs {requestedSerial : Option String} {purpose : SessionPurpose}
    (h : (AdbReverseSession.connect requestedSerial purpose limits).Runs events result) :
    Silent events ∧ (∃ failure, result = .error failure) ∨
      ∃ before serial desktopSpec created after,
        events = before ++ ⟨.run (createArgs serial desktopSpec), created⟩ :: after ∧
        Silent before ∧ validSerial serial = true ∧ Adopted serial after result := by
  obtain ⟨first, selected, others, hselect, hreject, rfl⟩ := runs_bind_iff.mp h
  obtain ⟨hfirst, hvalid⟩ := selectDevice_runs hselect
  cases selected with
  | error failure =>
      obtain ⟨rfl, rfl⟩ := runs_pure_iff.mp hreject
      exact Or.inl ⟨hfirst.append silent_nil, failure, rfl⟩
  | ok serial =>
  obtain ⟨second, rejected, others, hrejected, hbind, rfl⟩ := runs_bind_iff.mp hreject
  have hsecond := rejectExistingRule_runs hrejected
  cases rejected with
  | error failure =>
      obtain ⟨rfl, rfl⟩ := runs_pure_iff.mp hbind
      exact Or.inl ⟨hfirst.append (hsecond.append silent_nil), failure, rfl⟩
  | ok _ =>
  obtain ⟨port, others, rfl, harm⟩ := runs_query_bind_iff.mp hbind
  have hport : Silent [⟨.bindListener, port⟩] := silent_query (by simp) (by simp)
  cases port with
  | none =>
      obtain ⟨rfl, rfl⟩ := runs_pure_iff.mp harm
      exact Or.inl ⟨hfirst.append (hsecond.append hport), .unavailable, rfl⟩
  | some port =>
  obtain ⟨armed, others, rfl, hopen⟩ := runs_query_bind_iff.mp harm
  have harmed : Silent [⟨.armCleanupGuard serial, armed⟩] := silent_query (by simp) (by simp)
  cases armed with
  | none =>
      obtain ⟨rfl, rfl⟩ := runs_pure_iff.mp hopen
      exact Or.inl ⟨hfirst.append (hsecond.append (hport.cons harmed)), .reverseRule, rfl⟩
  | some armed =>
      obtain ⟨created, after, rfl, hadopted⟩ := openRule_runs hopen
      refine Or.inr ⟨first ++ (second ++ [⟨.bindListener, some port⟩,
        ⟨.armCleanupGuard serial, some armed⟩]), serial, specOf port, created, after, by simp, ?_,
        (hvalid serial rfl).2, hadopted⟩
      exact hfirst.append (hsecond.append (hport.cons harmed))

end Connecting

section Using

open AdbReverseSession

variable {events : List Event} {s t : AdbReverseSession} {serial : String}

/-- A removal of the rule has succeeded. -/
def Removed (serial : String) (events : List Event) : Prop :=
  ∃ output, ⟨.run (removeArgs serial), some output⟩ ∈ events

theorem Cleanup.removed {answer : Option String} {rest : List Event} (h : answer ≠ none) :
    Removed serial (⟨.run (removeArgs serial), answer⟩ :: rest) := by
  cases answer with
  | none => exact absurd rfl h
  | some output => exact ⟨output, List.mem_cons_self⟩

/-- What a removal by a session does. -/
structure Removal (s : AdbReverseSession) (events : List Event)
    (outcome : Except AdbError Unit × AdbReverseSession) : Prop where
  idle : s.ruleActive = false → events = []
  cleanup : s.ruleActive = true → Cleanup s.serial events
  removed : s.ruleActive = true → outcome.1 = .ok () → Removed s.serial events
  serial : outcome.2.serial = s.serial
  closed : outcome.2.closed = s.closed

theorem removeRule_runs {outcome : Except AdbError Unit × AdbReverseSession}
    (h : s.removeRule.Runs events outcome) : Removal s events outcome := by
  unfold removeRule at h
  by_cases hactive : s.ruleActive = true
  · rw [if_neg (not_not.mpr hactive)] at h
    have hidle : s.ruleActive = false → events = [] := by
      intro hinactive
      rw [hactive] at hinactive
      cases hinactive
    obtain ⟨own, removed, others, hremove, hrest, rfl⟩ := runs_bind_iff.mp h
    obtain ⟨answer, rfl, hanswer⟩ := removeReverseRule_runs hremove
    cases removed with
    | error failure =>
        obtain ⟨rfl, rfl⟩ := runs_pure_iff.mp hrest
        have hnone : answer = none := by
          by_contra hsome
          cases hanswer.mpr hsome
        exact ⟨hidle, fun _ => ⟨answer, [], rfl, disarming_nil, fun _ => rfl⟩,
          fun _ hok => (by cases hok), rfl, rfl⟩
    | ok _ =>
        have hsome := hanswer.mp rfl
        cases hguard : s.cleanupGuard with
        | none =>
            rw [hguard] at hrest
            obtain ⟨rfl, rfl⟩ := runs_pure_iff.mp hrest
            exact ⟨hidle, fun _ => ⟨answer, [], rfl, disarming_nil, fun _ => rfl⟩,
              fun _ _ => Cleanup.removed hsome, rfl, rfl⟩
        | some guard =>
            rw [hguard] at hrest
            obtain ⟨own, disarmed, last, hdisarm, hreturn, rfl⟩ := runs_bind_iff.mp hrest
            obtain ⟨rfl, rfl⟩ := runs_pure_iff.mp hreturn
            refine ⟨hidle, fun _ => ⟨answer, own ++ [], rfl, ?_, fun hnone => absurd hnone hsome⟩,
              fun _ _ => Cleanup.removed hsome, rfl, rfl⟩
            rw [List.append_nil]
            exact disarm_runs hdisarm
  · rw [if_pos hactive] at h
    obtain ⟨rfl, rfl⟩ := runs_pure_iff.mp h
    exact ⟨fun _ => rfl, fun h => absurd h hactive, fun h => absurd h hactive, rfl, rfl⟩

/-- What an operation on a session does. -/
structure Performed (s : AdbReverseSession) (operation : Operation) (events : List Event)
    (outcome : Option (Except TransportError (List Byte)) × AdbReverseSession) : Prop where
  parts : ∃ quiet removal, events = quiet ++ removal ∧ Silent quiet ∧
    (removal = [] ∨ Cleanup s.serial removal)
  attempted : s.closed = false → s.ruleActive = true →
    ∃ quiet removal, events = quiet ++ removal ∧ Cleanup s.serial removal
  answered : ∀ response, outcome.1 = some (.ok response) →
    s.closed = false ∧ Online s.serial events ∧ (s.ruleActive = true → Removed s.serial events)
  serial : outcome.2.serial = s.serial
  closed : operation ≠ .drop → outcome.2.closed = true

theorem Removal.parts {outcome : Except AdbError Unit × AdbReverseSession}
    (h : Removal s events outcome) : events = [] ∨ Cleanup s.serial events := by
  cases hactive : s.ruleActive with
  | false => exact Or.inl (h.idle hactive)
  | true => exact Or.inr (h.cleanup hactive)

theorem Online.append_right {others : List Event} (h : Online serial events) :
    Online serial (events ++ others) := by
  obtain ⟨output, devices, hmem, hparse, hdevice⟩ := h
  exact ⟨output, devices, List.mem_append_left _ hmem, hparse, hdevice⟩

theorem Removed.append_left {others : List Event} (h : Removed serial others) :
    Removed serial (events ++ others) := by
  obtain ⟨output, hmem⟩ := h
  exact ⟨output, List.mem_append_right _ hmem⟩

theorem exchange_runs {purpose : SessionPurpose} {request : List Byte}
    {outcome : Except TransportError (List Byte) × AdbReverseSession}
    (h : (s.exchange purpose request).Runs events outcome) :
    Performed s (.exchange purpose request) events (some outcome.1, outcome.2) := by
  unfold AdbReverseSession.exchange at h
  by_cases hclosed : s.closed = true
  · rw [if_pos hclosed] at h
    obtain ⟨rfl, rfl⟩ := runs_pure_iff.mp h
    refine ⟨⟨[], [], rfl, silent_nil, Or.inl rfl⟩, ?_, ?_, rfl, fun _ => hclosed⟩
    · intro hopen
      rw [hclosed] at hopen
      cases hopen
    · intro response hresponse
      cases hresponse
  · rw [if_neg hclosed] at h
    obtain ⟨stream, after, rfl, hafter⟩ := runs_query_bind_iff.mp h
    obtain ⟨online, device, others, hensure, hremoving, rfl⟩ := runs_bind_iff.mp hafter
    obtain ⟨removal, removed, last, hremove, hreturn, rfl⟩ := runs_bind_iff.mp hremoving
    obtain ⟨rfl, rfl⟩ := runs_pure_iff.mp hreturn
    obtain ⟨hsilent, honline⟩ := ensureSameOnlineDevice_runs hensure
    have hremoval := removeRule_runs hremove
    have hquiet : Silent (⟨.stream purpose request, stream⟩ :: online) :=
      (silent_query (by simp) (by simp)).cons hsilent
    have hevents : (⟨.stream purpose request, stream⟩ :: (online ++ (removal ++ [])) : List Event) =
        (⟨.stream purpose request, stream⟩ :: online) ++ removal := by simp
    rw [hevents]
    refine ⟨⟨_, removal, rfl, hquiet, hremoval.parts⟩,
      fun _ hactive => ⟨_, removal, rfl, hremoval.cleanup hactive⟩, ?_, hremoval.serial,
      fun _ => hremoval.closed⟩
    intro response hresponse
    split_ifs at hresponse with hok
    · obtain ⟨hdevice, hruleRemoved⟩ := hok
      obtain ⟨u, rfl⟩ := exists_of_isOk hdevice
      obtain ⟨v, hremoved⟩ := exists_of_isOk hruleRemoved
      obtain ⟨output, devices, hmem, hparse, hlisted⟩ := honline rfl
      refine ⟨Bool.eq_false_of_not_eq_true hclosed,
        Online.append_right ⟨output, devices, List.mem_cons_of_mem _ hmem, hparse, hlisted⟩, ?_⟩
      intro hactive
      exact (hremoval.removed hactive hremoved).append_left
    · cases hresponse

/-- A removal that answers no exchange. -/
theorem Removal.performed {u : AdbReverseSession} {operation : Operation}
    {outcome : Except AdbError Unit × AdbReverseSession} (h : Removal u events outcome)
    (hserial : u.serial = s.serial) (hactive : u.ruleActive = s.ruleActive)
    (hclosed : operation ≠ .drop → u.closed = true) :
    Performed s operation events (none, outcome.2) where
  parts := ⟨[], events, rfl, silent_nil, hserial ▸ h.parts⟩
  attempted := fun _ hs => ⟨[], events, rfl, hserial ▸ h.cleanup (hactive.trans hs)⟩
  answered := fun _ hnone => by cases hnone
  serial := h.serial.trans hserial
  closed := fun hdrop => h.closed.trans (hclosed hdrop)

theorem perform_runs {operation : Operation}
    {outcome : Option (Except TransportError (List Byte)) × AdbReverseSession}
    (h : (s.perform operation).Runs events outcome) : Performed s operation events outcome := by
  cases operation with
  | exchange purpose request =>
      obtain ⟨own, result, last, hexchange, hreturn, rfl⟩ := runs_bind_iff.mp h
      obtain ⟨rfl, rfl⟩ := runs_pure_iff.mp hreturn
      rw [List.append_nil]
      exact exchange_runs hexchange
  | cancel =>
      obtain ⟨own, result, last, hcancel, hreturn, rfl⟩ := runs_bind_iff.mp h
      obtain ⟨rfl, rfl⟩ := runs_pure_iff.mp hreturn
      obtain ⟨removal, removed, others, hremove, hlast, rfl⟩ := runs_bind_iff.mp hcancel
      obtain ⟨rfl, rfl⟩ := runs_pure_iff.mp hlast
      rw [List.append_nil, List.append_nil]
      exact (removeRule_runs hremove).performed rfl rfl fun _ => rfl
  | drop =>
      obtain ⟨own, result, last, hdrop, hreturn, rfl⟩ := runs_bind_iff.mp h
      obtain ⟨rfl, rfl⟩ := runs_pure_iff.mp hreturn
      obtain ⟨removal, removed, others, hremove, hlast, rfl⟩ := runs_bind_iff.mp hdrop
      obtain ⟨rfl, rfl⟩ := runs_pure_iff.mp hlast
      rw [List.append_nil, List.append_nil]
      exact (removeRule_runs hremove).performed rfl rfl fun hne => absurd rfl hne

end Using

section Guards

variable {serial : String} {events others : List Event}

/-- The guard is told to go away only after a removal of the one rule has succeeded. -/
structure Guarded (serial : String) (events : List Event) : Prop where
  disarmed : ∀ before answer after, events = before ++ ⟨.writeDisarm, answer⟩ :: after →
    Removed serial before
  removes : ∀ other answer, ⟨.run (removeArgs other), answer⟩ ∈ events → other = serial
  creates : ∀ other desktopSpec answer, ⟨.run (createArgs other desktopSpec), answer⟩ ∉ events

theorem Guarded.append (h : Guarded serial events) (h' : Guarded serial others) :
    Guarded serial (events ++ others) where
  disarmed := by
    intro before answer after hsplit
    rcases Splits.append_split hsplit with hfirst | hsecond
    · obtain ⟨between, hevents⟩ := hfirst
      exact h.disarmed before answer between hevents
    · obtain ⟨between, rfl, hothers⟩ := hsecond
      exact (h'.disarmed between answer after hothers).append_left
  removes := by
    intro other answer hmem
    rcases List.mem_append.mp hmem with hmem | hmem
    · exact h.removes other answer hmem
    · exact h'.removes other answer hmem
  creates := by
    intro other desktopSpec answer hmem
    rcases List.mem_append.mp hmem with hmem | hmem
    · exact h.creates other desktopSpec answer hmem
    · exact h'.creates other desktopSpec answer hmem

theorem Silent.guarded (h : Silent events) : Guarded serial events where
  disarmed := by
    rintro before answer after rfl
    exact absurd rfl (h _ (List.mem_append_right _ List.mem_cons_self)).2.2
  removes := fun other answer hmem => absurd rfl ((h _ hmem).2.1 other)
  creates := fun other desktopSpec answer hmem => (h _ hmem).1 other desktopSpec rfl

theorem createArgs_ne_removeArgs (serial desktopSpec other : String) :
    createArgs serial desktopSpec ≠ removeArgs other := by
  intro h
  simp only [createArgs, removeArgs, List.cons.injEq, true_and] at h
  exact reverseSpec_ne_remove h.2.1

theorem Cleanup.guarded (h : Cleanup serial events) : Guarded serial events := by
  obtain ⟨answer, rest, rfl, hrest, hfailed⟩ := h
  have hrun (args : List String) (reply : Option String) : ⟨.run args, reply⟩ ∉ rest := by
    intro hmem
    rcases hrest _ hmem with hquery | hquery | hquery <;> cases hquery
  refine ⟨?_, ?_, ?_⟩
  · intro before reply after hsplit
    cases before with
    | nil =>
        have hquery : Query.run (removeArgs serial) = .writeDisarm :=
          congrArg Sigma.fst (List.cons.inj hsplit).1
        cases hquery
    | cons first before =>
        obtain ⟨rfl, htail⟩ := List.cons.inj hsplit
        apply Cleanup.removed
        intro hnone
        rw [hfailed hnone] at htail
        simp at htail
  · intro other reply hmem
    rcases List.mem_cons.mp hmem with heq | hmem
    · have hargs : removeArgs other = removeArgs serial := Query.run.inj (congrArg Sigma.fst heq)
      simp only [removeArgs, List.cons.injEq, and_true, true_and] at hargs
      exact hargs
    · exact absurd hmem (hrun _ _)
  · intro other desktopSpec reply hmem
    rcases List.mem_cons.mp hmem with heq | hmem
    · have hargs : createArgs other desktopSpec = removeArgs serial :=
        Query.run.inj (congrArg Sigma.fst heq)
      exact createArgs_ne_removeArgs _ _ _ hargs
    · exact hrun _ _ hmem

theorem Guarded.nil : Guarded serial [] := silent_nil.guarded

theorem removed_cons {e : Event} (h : ∀ output, e ≠ ⟨.run (removeArgs serial), some output⟩) :
    Removed serial (e :: events) ↔ Removed serial events := by
  constructor
  · rintro ⟨output, hmem⟩
    rcases List.mem_cons.mp hmem with heq | hmem
    · exact absurd heq.symm (h output)
    · exact ⟨output, hmem⟩
  · rintro ⟨output, hmem⟩
    exact ⟨output, List.mem_cons_of_mem _ hmem⟩

theorem removed_cons_failed :
    Removed serial (⟨.run (removeArgs serial), none⟩ :: events) ↔ Removed serial events := by
  apply removed_cons
  intro output heq
  have hanswer : (none : Option String) = some output := eq_of_heq (Sigma.mk.inj heq).2
  cases hanswer

theorem removeRetrying_runs {retries : ℕ} {outcome : Except Unit Unit}
    (h : (removeRetrying serial retries).Runs events outcome) :
    (∃ answer rest, events = ⟨.run (removeArgs serial), answer⟩ :: rest) ∧
      (outcome = .ok () ↔ Removed serial events) := by
  induction retries generalizing events with
  | zero =>
      unfold removeRetrying at h
      obtain ⟨own, removed, others, hremove, hrest, rfl⟩ := runs_bind_iff.mp h
      obtain ⟨answer, rfl, hanswer⟩ := removeReverseRule_runs hremove
      cases removed with
      | ok _ =>
          obtain ⟨rfl, rfl⟩ := runs_pure_iff.mp hrest
          exact ⟨⟨answer, [], rfl⟩, iff_of_true rfl (Cleanup.removed (hanswer.mp rfl))⟩
      | error failure =>
          obtain ⟨rfl, rfl⟩ := runs_pure_iff.mp hrest
          have hnone : answer = none := by
            by_contra hsome
            cases hanswer.mpr hsome
          subst hnone
          refine ⟨⟨none, [], rfl⟩, iff_of_false (by simp) ?_⟩
          intro hremoved
          obtain ⟨output, hmem⟩ := removed_cons_failed.mp hremoved
          cases hmem
  | succ retries ih =>
      unfold removeRetrying at h
      obtain ⟨own, removed, others, hremove, hrest, rfl⟩ := runs_bind_iff.mp h
      obtain ⟨answer, rfl, hanswer⟩ := removeReverseRule_runs hremove
      cases removed with
      | ok _ =>
          obtain ⟨rfl, rfl⟩ := runs_pure_iff.mp hrest
          exact ⟨⟨answer, [], rfl⟩, iff_of_true rfl (Cleanup.removed (hanswer.mp rfl))⟩
      | error failure =>
          have hnone : answer = none := by
            by_contra hsome
            cases hanswer.mpr hsome
          subst hnone
          exact ⟨⟨none, others, rfl⟩, (ih hrest).2.trans removed_cons_failed.symm⟩

/-- The guard of a serial removes its rule unless it reads the byte. -/
def GuardRemoves (serial : String) : Prop :=
  ∀ signal events outcome, (cleanupGuardFromReader serial).Runs (⟨.readSignal, signal⟩ :: events) outcome →
    signal ≠ .byte 68 →
    (∃ retries answer rest,
      events = ⟨.deadline, retries⟩ :: ⟨.run (removeArgs serial), answer⟩ :: rest) ∧
      (outcome = .ok () ↔ Removed serial events)

theorem guardRemoves (h : validSerial serial = true) : GuardRemoves serial := by
  intro signal events outcome hrun hsignal
  unfold cleanupGuardFromReader at hrun
  rw [if_neg (not_not.mpr h)] at hrun
  have hremove : removeReverseRuleAfterParentExit serial |>.Runs events outcome := by
    obtain ⟨answer, after, heq, hafter⟩ := runs_query_bind_iff.mp hrun
    obtain ⟨hhead, rfl⟩ := List.cons.inj heq
    obtain rfl : signal = answer := eq_of_heq (Sigma.mk.inj hhead).2
    cases signal with
    | byte b =>
        have hb : b ≠ 68 := fun hb => hsignal (congrArg Signal.byte hb)
        dsimp only at hafter
        rwa [if_neg hb] at hafter
    | closed => exact hafter
    | failed => exact hafter
  obtain ⟨retries, after, rfl, hretry⟩ := runs_query_bind_iff.mp hremove
  obtain ⟨hfirst, houtcome⟩ := removeRetrying_runs hretry
  obtain ⟨answer, rest, rfl⟩ := hfirst
  refine ⟨⟨retries, answer, rest, rfl⟩, houtcome.trans (removed_cons ?_).symm⟩
  intro output heq
  have hquery : Query.deadline = .run (removeArgs serial) := congrArg Sigma.fst heq
  cases hquery

end Guards

section Lifetimes

open AdbReverseSession

/-- An operation with its events and what it returned. -/
structure Entry where
  operation : Operation
  events : List Event
  result : Option (Except TransportError (List Byte))

variable {s t : AdbReverseSession} {entries : List Entry}

/-- The operations on a session, of which a drop is the last. -/
inductive Used (s : AdbReverseSession) : List Entry → AdbReverseSession → Prop
  | start : Used s [] s
  | perform {entries : List Entry} {t : AdbReverseSession} {operation : Operation}
      {events : List Event} {outcome : Option (Except TransportError (List Byte)) × AdbReverseSession} :
      Used s entries t → (∀ e ∈ entries, e.operation ≠ .drop) →
      (t.perform operation).Runs events outcome →
      Used s (entries ++ [⟨operation, events, outcome.1⟩]) outcome.2

/-- What was done with the outcome of `connect`. -/
def Lifetime (result : Except AdbError AdbReverseSession) (entries : List Entry) : Prop :=
  match result with
  | .error _ => entries = []
  | .ok session => ∃ last, Used session entries last

/-- What the operations on a fresh session say of the session. -/
structure Accounted (s : AdbReverseSession) (entries : List Entry) (t : AdbReverseSession) : Prop where
  serial : t.serial = s.serial
  guarded : Guarded s.serial (entries.flatMap Entry.events)
  closed : (∀ e ∈ entries, e.operation ≠ .drop) → entries ≠ [] → t.closed = true
  fresh : entries = [] → t = s
  attempted : entries ≠ [] → ∃ quiet cleanup rest,
    entries.flatMap Entry.events = quiet ++ (cleanup ++ rest) ∧ Cleanup s.serial cleanup
  answered : ∀ earlier e later response, entries = earlier ++ e :: later →
    e.result = some (.ok response) →
    earlier = [] ∧ Removed s.serial e.events ∧ Online s.serial e.events

theorem Performed.guarded {operation : Operation} {events : List Event}
    {outcome : Option (Except TransportError (List Byte)) × AdbReverseSession}
    (h : Performed s operation events outcome) : Guarded s.serial events := by
  obtain ⟨quiet, removal, rfl, hquiet, hremoval⟩ := h.parts
  apply hquiet.guarded.append
  rcases hremoval with rfl | hcleanup
  · exact Guarded.nil
  · exact hcleanup.guarded

theorem Used.accounted (hactive : s.ruleActive = true) (hopen : s.closed = false)
    (h : Used s entries t) : Accounted s entries t := by
  induction h with
  | start =>
      exact ⟨rfl, Guarded.nil, fun _ hne => absurd rfl hne, fun _ => rfl, fun hne => absurd rfl hne,
        by simp⟩
  | @perform entries t operation events outcome _ hundropped hrun ih =>
      have hperformed := perform_runs hrun
      have hserial := hperformed.serial.trans ih.serial
      have hguarded : Guarded s.serial events := ih.serial ▸ hperformed.guarded
      have hfirst : entries ≠ [] → t.closed = true := ih.closed hundropped
      have hevents : (entries ++ [(⟨operation, events, outcome.1⟩ : Entry)]).flatMap Entry.events =
          entries.flatMap Entry.events ++ events := by simp
      refine ⟨hserial, ?_, ?_, by simp, ?_, ?_⟩
      · rw [hevents]
        exact ih.guarded.append hguarded
      · intro hops _
        exact hperformed.closed (hops ⟨operation, events, outcome.1⟩ (by simp))
      · intro _
        rw [hevents]
        by_cases hempty : entries = []
        · subst hempty
          obtain rfl := ih.fresh rfl
          obtain ⟨quiet, cleanup, rfl, hcleanup⟩ := hperformed.attempted hopen hactive
          exact ⟨quiet, cleanup, [], by simp, hcleanup⟩
        · obtain ⟨quiet, cleanup, rest, heq, hcleanup⟩ := ih.attempted hempty
          exact ⟨quiet, cleanup, rest ++ events, by simp [heq], hcleanup⟩
      · intro earlier e later response hsplit hresponse
        rcases Splits.append_split hsplit with hbefore | hlast
        · obtain ⟨between, hentries⟩ := hbefore
          exact ih.answered earlier e between response hentries hresponse
        · obtain ⟨between, rfl, hone⟩ := hlast
          have hbetween : between = [] := by
            have hlength := congrArg List.length hone
            simp only [List.length_cons, List.length_nil, List.length_append] at hlength
            exact List.length_eq_zero_iff.mp (by omega)
          subst hbetween
          obtain rfl := (List.cons.inj hone).1
          obtain ⟨hnot, honline, hremoved⟩ := hperformed.answered response hresponse
          have hempty : entries = [] := by
            by_contra hne
            rw [hfirst hne] at hnot
            cases hnot
          subst hempty
          obtain rfl := ih.fresh rfl
          exact ⟨rfl, hremoved hactive, honline⟩

/-- What follows the reverse command over a whole lifetime. -/
theorem Adopted.lifetime {serial : String} {after : List Event}
    {result : Except AdbError AdbReverseSession} (h : Adopted serial after result)
    (huse : Lifetime result entries) :
    Guarded serial (after ++ entries.flatMap Entry.events) ∧
      ((∃ failure, result = .error failure) ∨ entries ≠ [] → ∃ quiet cleanup rest,
        after ++ entries.flatMap Entry.events = quiet ++ (cleanup ++ rest) ∧ Cleanup serial cleanup) ∧
      ∀ earlier e later response, entries = earlier ++ e :: later → e.result = some (.ok response) →
        earlier = [] ∧ Removed serial e.events ∧ Online serial e.events := by
  cases h with
  | @abandoned between cleanup failure hsilent hcleanup =>
      obtain rfl : entries = [] := huse
      refine ⟨?_, fun _ => ⟨between, cleanup, [], by simp, hcleanup⟩, by simp⟩
      rw [List.flatMap_nil, List.append_nil]
      exact hsilent.guarded.append hcleanup.guarded
  | @connected _ session hsilent hserial hactive hopen =>
      obtain ⟨last, hused⟩ := huse
      subst hserial
      have haccounted := hused.accounted hactive hopen
      refine ⟨hsilent.guarded.append haccounted.guarded, ?_, haccounted.answered⟩
      rintro (hfailed | hne)
      · obtain ⟨failure, hfailed⟩ := hfailed
        cases hfailed
      · obtain ⟨quiet, cleanup, rest, heq, hcleanup⟩ := haccounted.attempted hne
        exact ⟨after ++ quiet, cleanup, rest, by simp [heq], hcleanup⟩

/-- Over every lifetime of a session, whatever the host answers: the guard is told to go away only
after the rule was created and a removal of it succeeded; no removal comes before the creation; once
`connect` has failed after the creation, or the session has been used, a removal of the same rule
was tried, and either one succeeded or the guard was never told to go away and removes the rule
itself; and an exchange succeeds only as the first operation, with the rule removed and the same
device online. -/
theorem reverse_rule_guarded {requestedSerial : Option String} {purpose : SessionPurpose}
    {limits : TransportLimits} {opening : List Event} {result : Except AdbError AdbReverseSession}
    (hconnect : (connect requestedSerial purpose limits).Runs opening result)
    (huse : Lifetime result entries) :
    (∀ before answer after,
      opening ++ entries.flatMap Entry.events = before ++ ⟨.writeDisarm, answer⟩ :: after →
      ∃ serial desktopSpec created first rest,
        before = first ++ ⟨.run (createArgs serial desktopSpec), created⟩ :: rest ∧
        Removed serial rest) ∧
      (∀ before serial answer after, opening ++ entries.flatMap Entry.events =
          before ++ ⟨.run (removeArgs serial), answer⟩ :: after →
        ∃ desktopSpec created, ⟨.run (createArgs serial desktopSpec), created⟩ ∈ before) ∧
      (∀ before serial desktopSpec created after, opening ++ entries.flatMap Entry.events =
          before ++ ⟨.run (createArgs serial desktopSpec), created⟩ :: after →
        (∃ failure, result = .error failure) ∨ entries ≠ [] →
        (∃ answer, ⟨.run (removeArgs serial), answer⟩ ∈ after) ∧
          (Removed serial after ∨
            (∀ e ∈ opening ++ entries.flatMap Entry.events, e.1 ≠ .writeDisarm) ∧
              GuardRemoves serial)) ∧
      ∀ earlier e later response, entries = earlier ++ e :: later → e.result = some (.ok response) →
        earlier = [] ∧ ∃ session, result = .ok session ∧ Removed session.serial e.events ∧
          Online session.serial e.events := by
  rcases connect_runs hconnect with hunopened | hopened
  · obtain ⟨hsilent, failure, rfl⟩ := hunopened
    obtain rfl : entries = [] := huse
    rw [List.flatMap_nil, List.append_nil]
    refine ⟨?_, ?_, ?_, by simp⟩
    · rintro before answer after rfl
      exact absurd rfl (hsilent _ (List.mem_append_right _ List.mem_cons_self)).2.2
    · rintro before serial answer after rfl
      exact absurd rfl ((hsilent _ (List.mem_append_right _ List.mem_cons_self)).2.1 serial)
    · rintro before serial desktopSpec created after rfl
      exact absurd rfl ((hsilent _ (List.mem_append_right _ List.mem_cons_self)).1 serial desktopSpec)
  · obtain ⟨first, serial, desktopSpec, created, after, rfl, hfirst, hvalid, hadopted⟩ := hopened
    obtain ⟨hguarded, hattempted, hanswered⟩ := hadopted.lifetime huse
    generalize hrest : after ++ entries.flatMap Entry.events = rest at hguarded hattempted
    have hevents : (first ++ ⟨.run (createArgs serial desktopSpec), created⟩ :: after) ++
        entries.flatMap Entry.events =
          first ++ ⟨.run (createArgs serial desktopSpec), created⟩ :: rest := by
      rw [← hrest]
      simp
    rw [hevents]
    have hfound {e : Event} {before later : List Event}
        (hsplit : first ++ ⟨.run (createArgs serial desktopSpec), created⟩ :: rest =
          before ++ e :: later)
        (he : ¬ Silent [e]) (hne : e ≠ ⟨.run (createArgs serial desktopSpec), created⟩) :
        ∃ between, before = first ++ ⟨.run (createArgs serial desktopSpec), created⟩ :: between ∧
          rest = between ++ e :: later := by
      rcases Splits.append_split hsplit with hbefore | hlater
      · obtain ⟨between, hbefore⟩ := hbefore
        have hmem : e ∈ first := hbefore ▸ List.mem_append_right _ List.mem_cons_self
        refine absurd ?_ he
        intro other hother
        obtain rfl := List.mem_singleton.mp hother
        exact hfirst other hmem
      · obtain ⟨between, rfl, hcons⟩ := hlater
        cases between with
        | nil => exact absurd (List.cons.inj hcons).1.symm hne
        | cons head between =>
            obtain ⟨rfl, htail⟩ := List.cons.inj hcons
            exact ⟨between, rfl, htail⟩
    refine ⟨?_, ?_, ?_, ?_⟩
    · intro before answer later hsplit
      have hloud : ¬ Silent [⟨.writeDisarm, answer⟩] :=
        fun hsilent => (hsilent _ List.mem_cons_self).2.2 rfl
      obtain ⟨between, rfl, hlater⟩ := hfound hsplit hloud
        fun heq => Query.noConfusion (congrArg Sigma.fst heq)
      exact ⟨serial, desktopSpec, created, first, between, rfl,
        hguarded.disarmed between answer later hlater⟩
    · intro before other answer later hsplit
      have hloud : ¬ Silent [⟨.run (removeArgs other), answer⟩] :=
        fun hsilent => (hsilent _ List.mem_cons_self).2.1 other rfl
      obtain ⟨between, rfl, hlater⟩ := hfound hsplit hloud fun heq =>
        createArgs_ne_removeArgs _ _ _ (Query.run.inj (congrArg Sigma.fst heq)).symm
      obtain rfl := hguarded.removes other answer
        (hlater ▸ List.mem_append_right _ List.mem_cons_self)
      exact ⟨desktopSpec, created, List.mem_append_right _ List.mem_cons_self⟩
    · intro before other otherSpec reply later hsplit hused
      have hothers : ∀ e ∈ first ++ rest, ¬ ∃ name spec, e.1 = .run (createArgs name spec) := by
        intro e he hcreate
        obtain ⟨name, spec, hquery⟩ := hcreate
        rcases List.mem_append.mp he with he | he
        · exact (hfirst e he).1 name spec hquery
        · obtain ⟨query, found⟩ := e
          obtain rfl : query = .run (createArgs name spec) := hquery
          exact hguarded.creates name spec found he
      obtain ⟨rfl, heq, rfl⟩ := Splits.only_unique hsplit hothers ⟨other, otherSpec, rfl⟩
      have hargs := Query.run.inj (congrArg Sigma.fst heq)
      simp only [createArgs, List.cons.injEq, and_true, true_and] at hargs
      obtain ⟨rfl, rfl⟩ := hargs
      obtain ⟨quiet, cleanup, others, hparts, hcleanup⟩ := hattempted hused
      obtain ⟨answer, disarming, rfl, -, -⟩ := hcleanup
      refine ⟨⟨answer, by rw [hparts]; simp⟩, ?_⟩
      by_cases hremoved : Removed serial rest
      · exact Or.inl hremoved
      · refine Or.inr ⟨?_, guardRemoves hvalid⟩
        intro e he hquery
        obtain ⟨query, found⟩ := e
        obtain rfl : query = .writeDisarm := hquery
        rcases List.mem_append.mp he with he | he
        · exact (hfirst _ he).2.2 rfl
        · rcases List.mem_cons.mp he with heq | he
          · exact Query.noConfusion (congrArg Sigma.fst heq)
          · obtain ⟨between, later, rfl⟩ := List.append_of_mem he
            obtain ⟨output, hmem⟩ := hguarded.disarmed between found later rfl
            exact hremoved ⟨output, List.mem_append_left _ hmem⟩
    · intro earlier e later response hentries hresponse
      obtain ⟨hearlier, hremoved, honline⟩ := hanswered earlier e later response hentries hresponse
      refine ⟨hearlier, ?_⟩
      cases hadopted with
      | abandoned =>
          obtain rfl : entries = [] := huse
          simp at hentries
      | connected _ hserial _ _ => exact ⟨_, rfl, hserial ▸ hremoved, hserial ▸ honline⟩

section Sample

/-- One device is online, and every query succeeds. -/
def sampleHost : Host Query.Answer := fun _ query =>
  match query with
  | .run args => some (if args = ["devices"] then "List of devices attached\nphone device" else "")
  | .bindListener => some 50000
  | .armCleanupGuard _ => some true
  | .deadline => (0 : ℕ)
  | .accept => .peer (.v4 ⟨[127, 0, 0, 1], rfl⟩)
  | .configure _ => some ()
  | .drawSessionId => Bytes.replicate 16 0
  | .stream _ _ => ⟨true, true, []⟩
  | .writeDisarm => some ()
  | .tryWait => some true
  | .readSignal => .closed

private theorem sample_connects :
    ((connect none .pairing .default).run sampleHost []).1.isOk = true := by
  decide +kernel

/-- A session that is connected and cancelled has tried to remove its rule. -/
theorem reverse_rule_guarded_sample : ∃ opening session entries,
    (connect none .pairing .default).Runs opening (.ok session) ∧ Lifetime (.ok session) entries ∧
      entries ≠ [] ∧ ∀ before serial desktopSpec created after,
        opening ++ entries.flatMap Entry.events =
            before ++ ⟨.run (createArgs serial desktopSpec), created⟩ :: after →
          ∃ answer, ⟨.run (removeArgs serial), answer⟩ ∈ after := by
  obtain ⟨session, hsession⟩ := exists_of_isOk sample_connects
  have hconnect := runs_run sampleHost [] (connect none .pairing .default)
  rw [hsession] at hconnect
  have hcancel := runs_run sampleHost [] (session.perform .cancel)
  have hlifetime : Lifetime (.ok session) [⟨.cancel, _, _⟩] :=
    ⟨_, Used.start.perform (by simp) hcancel⟩
  refine ⟨_, session, _, hconnect, hlifetime, by simp, ?_⟩
  intro before serial desktopSpec created after hsplit
  exact ((reverse_rule_guarded hconnect hlifetime).2.2.1 before serial desktopSpec created after hsplit
    (Or.inr (by simp))).1

end Sample

end Lifetimes

end AgePluginPhone.Desktop.Adb
