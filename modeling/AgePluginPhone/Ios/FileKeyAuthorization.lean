import AgePluginPhone.Ios.FileKeyRelease
import AgePluginPhone.Ios.PairingRoles
import AgePluginPhone.Library.Machine

/-!
# Authorisation of file keys on iOS

A response is sealed only through one completed authorisation of one consumed request. The
invariant says of each phase of an operation what the log holds since its consumption; the blocks
of the rest of the plugin keep it, whatever they take away.
-/

namespace AgePluginPhone.Ios.PhoneIdentityPlugin

open Library

variable {K : CryptoKit}

section Statement

/-- The consumption of a request, or the sealing of a response to one. -/
def Entry.isUse : Entry K → Bool
  | consumed _ | .sealed _ _ _ => true
  | _ => false

def Quiet (entries : List (Entry K)) : Prop := ∀ e ∈ entries, e.isUse = false

/-- On Wi-Fi: no disconnect of the operation's session and no stop. -/
def SessionKept (origin : Origin) (entries : List (Entry K)) : Prop :=
  ∀ session, origin = .wifi session →
    .disconnected session ∉ entries ∧ Entry.stopped ∉ entries

/-- The log ends with a completed authorisation of one consumed request, in whose context the key
operation was done, and no response was sealed since that consumption. -/
def Authorised (log : List (Entry K)) (origin : Origin) (request : VerifiedUnwrapRequest K) :
    Prop :=
  ∃ context now earlier opening during closing,
    log = earlier ++ .consumed request ::
      (opening ++ .installed context :: (during ++ .slotHeld context :: closing)) ∧
    now ≤ request.expiresAtUnix ∧
    [.keyCompleted context, .deadlineCompleted context, .withinExpiry now].Sublist during ∧
    Quiet (opening ++ during ++ closing) ∧ Entry.background ∉ during ∧
    SessionKept origin (during ++ closing)

/-- The log ends with the sealing of a response to the request. -/
def Sealed (log : List (Entry K)) (request : VerifiedUnwrapRequest K) : Prop :=
  ∃ origin wifiSession earlier closing,
    log = earlier ++ .sealed origin request wifiSession :: closing ∧ Quiet closing

/-- What must have happened before an entry. -/
def Justified (log : List (Entry K)) : Entry K → Prop
  | .sealed origin request wifiSession =>
      Authorised log origin request ∧ ∀ session, origin = .wifi session → wifiSession = some session
  | .responded request => Sealed log request
  | _ => True

/-- The context of a call of `openAuthenticatedFileKey`, or of the doctor, in progress. -/
def Phase.context : Phase K → Option Context
  | installed _ _ context | probe context => some context
  | armed a | failed a | keyed a | completed a | unexpired a | leaving a _ => some a.context
  | _ => none

/-- Every context is in use or has been invalidated. -/
def Invalidated (s : Plugin K) : Prop :=
  ∀ context < s.contexts,
    s.running.bind Phase.context = some context ∨ context ∈ s.invalidated

end Statement

section Trails

theorem Quiet.append {a b : List (Entry K)} (ha : Quiet a) (hb : Quiet b) : Quiet (a ++ b) :=
  List.forall_mem_append.mpr ⟨ha, hb⟩

theorem quiet_nil : Quiet ([] : List (Entry K)) := fun _ h => absurd h List.not_mem_nil

/-- Sessions of the origin have been created. -/
def Known (s : Plugin K) (origin : Origin) : Prop :=
  ∀ session, origin = .wifi session → session < s.sessions

/-- A step that neither uses a request nor installs a context: what is in place after it was in
place before it, and nothing it did took that away. -/
structure Elsewhere (s s' : Plugin K) (new : List (Entry K)) : Prop where
  quiet : Quiet new
  held : ∀ context, s'.activeAuthenticationContext = some context →
    s.activeAuthenticationContext = some context ∧ Entry.background ∉ new
  kept : ∀ session < s.sessions, s'.wifiSession = some session →
    s.wifiSession = some session ∧ SessionKept (.wifi session) new

/-- The log since the installation of a context. -/
structure Since (s : Plugin K) (origin : Origin) (context : Context) (rest : List (Entry K)) :
    Prop where
  quiet : Quiet rest
  held : s.activeAuthenticationContext = some context → Entry.background ∉ rest
  kept : ∀ session, origin = .wifi session → s.wifiSession = some session →
    SessionKept origin rest

def Consumed (log : List (Entry K)) (request : VerifiedUnwrapRequest K) : Prop :=
  ∃ earlier opening, log = earlier ++ .consumed request :: opening ∧ Quiet opening

/-- Before the slot is compared: the milestones so far, since the installation. -/
def Pending (s : Plugin K) (log : List (Entry K)) (origin : Origin)
    (request : VerifiedUnwrapRequest K) (context : Context) (milestones : List (Entry K)) : Prop :=
  ∃ earlier opening rest,
    log = earlier ++ .consumed request :: (opening ++ .installed context :: rest) ∧
    Quiet opening ∧ Since s origin context rest ∧ milestones.Sublist rest

/-- After the slot was compared. -/
def Released (s : Plugin K) (log : List (Entry K)) (origin : Origin)
    (request : VerifiedUnwrapRequest K) : Prop :=
  ∃ context now earlier opening during closing,
    log = earlier ++ .consumed request ::
      (opening ++ .installed context :: (during ++ .slotHeld context :: closing)) ∧
    now ≤ request.expiresAtUnix ∧
    [.keyCompleted context, .deadlineCompleted context, .withinExpiry now].Sublist during ∧
    Quiet (opening ++ during ++ closing) ∧ Entry.background ∉ during ∧
    ∀ session, origin = .wifi session → s.wifiSession = some session →
      SessionKept origin (during ++ closing)

/-- What the log holds in each phase of the running operation. -/
def Trail (s : Plugin K) (log : List (Entry K)) : Phase K → Prop
  | .entered _ request | .timely _ request | .owned _ request => Consumed log request
  | .installed origin request context => Pending s log origin request context []
  | .armed a => Pending s log a.origin a.request a.context []
  | .keyed a => Pending s log a.origin a.request a.context [.keyCompleted a.context]
  | .completed a => Pending s log a.origin a.request a.context
      [.keyCompleted a.context, .deadlineCompleted a.context]
  | .unexpired a => ∃ now ≤ a.request.expiresAtUnix, Pending s log a.origin a.request a.context
      [.keyCompleted a.context, .deadlineCompleted a.context, .withinExpiry now]
  | .leaving a true | .clearing a true => Released s log a.origin a.request
  | .released origin request | .signing origin request => Released s log origin request
  | .responding request => Sealed log request
  | _ => True

def Phase.origin : Phase K → Option Origin
  | verifying origin _ | entered origin _ | timely origin _ | owned origin _
  | installed origin _ _ | released origin _ | signing origin _ => some origin
  | armed a | failed a | keyed a | completed a | unexpired a | leaving a _ | clearing a _ =>
      some a.origin
  | _ => none

variable {s s' : Plugin K} {log new : List (Entry K)} {origin : Origin}
  {request : VerifiedUnwrapRequest K} {context : Context}

theorem SessionKept.append {a b : List (Entry K)} (ha : SessionKept origin a)
    (hb : SessionKept origin b) : SessionKept origin (a ++ b) := by
  intro session horigin
  obtain ⟨hdisconnected, hstopped⟩ := ha session horigin
  obtain ⟨hdisconnected', hstopped'⟩ := hb session horigin
  simp [hdisconnected, hstopped, hdisconnected', hstopped']

theorem Consumed.append (h : Consumed log request) (hnew : Quiet new) :
    Consumed (log ++ new) request := by
  obtain ⟨earlier, opening, rfl, hquiet⟩ := h
  exact ⟨earlier, opening ++ new, by simp, hquiet.append hnew⟩

theorem Sealed.append (h : Sealed log request) (hnew : Quiet new) :
    Sealed (log ++ new) request := by
  obtain ⟨origin, wifiSession, earlier, closing, rfl, hquiet⟩ := h
  exact ⟨origin, wifiSession, earlier, closing ++ new, by simp, hquiet.append hnew⟩

theorem Elsewhere.sessionKept (he : Elsewhere s s' new) (hknown : Known s origin)
    {rest : List (Entry K)} (h : ∀ session, origin = .wifi session →
      s.wifiSession = some session → SessionKept origin rest) :
    ∀ session, origin = .wifi session → s'.wifiSession = some session →
      SessionKept origin (rest ++ new) := by
  rintro session rfl hsession
  obtain ⟨hbefore, hkept⟩ := he.kept session (hknown session rfl) hsession
  exact (h session rfl hbefore).append hkept

theorem Since.append {rest : List (Entry K)} (h : Since s origin context rest)
    (hknown : Known s origin) (he : Elsewhere s s' new) : Since s' origin context (rest ++ new) where
  quiet := h.quiet.append he.quiet
  held hheld := by
    obtain ⟨hbefore, hnew⟩ := he.held context hheld
    simp [h.held hbefore, hnew]
  kept := he.sessionKept hknown h.kept

theorem Pending.append {milestones more : List (Entry K)}
    (h : Pending s log origin request context milestones) (hknown : Known s origin)
    (he : Elsewhere s s' new) (hmore : more.Sublist new) :
    Pending s' (log ++ new) origin request context (milestones ++ more) := by
  obtain ⟨earlier, opening, rest, rfl, hquiet, hsince, hdone⟩ := h
  exact ⟨earlier, opening, rest ++ new, by simp, hquiet, hsince.append hknown he, hdone.append hmore⟩

theorem Released.append (h : Released s log origin request) (hknown : Known s origin)
    (he : Elsewhere s s' new) : Released s' (log ++ new) origin request := by
  obtain ⟨context, now, earlier, opening, during, closing, rfl, hnow, hdone, hquiet, hheld, hkept⟩ :=
    h
  refine ⟨context, now, earlier, opening, during, closing ++ new, by simp, hnow, hdone, ?_, hheld,
    ?_⟩
  · simpa [List.append_assoc] using hquiet.append he.quiet
  · simpa [List.append_assoc] using he.sessionKept hknown hkept

/-- The slot holds the context when it is compared. -/
theorem Pending.released {now : U64}
    (h : Pending s log origin request context
      [.keyCompleted context, .deadlineCompleted context, .withinExpiry now])
    (hnow : now ≤ request.expiresAtUnix)
    (hslot : s.activeAuthenticationContext = some context) :
    Released s (log ++ [.slotHeld context]) origin request := by
  obtain ⟨earlier, opening, rest, rfl, hquiet, hsince, hdone⟩ := h
  refine ⟨context, now, earlier, opening, rest, [], by simp, hnow, hdone, ?_, hsince.held hslot, ?_⟩
  · simpa using hquiet.append hsince.quiet
  · simpa using hsince.kept

theorem Released.authorised (h : Released s log origin request) (howns : s.ownsSession origin) :
    Authorised log origin request := by
  obtain ⟨context, now, earlier, opening, during, closing, hlog, hnow, hdone, hquiet, hheld, hkept⟩ :=
    h
  refine ⟨context, now, earlier, opening, during, closing, hlog, hnow, hdone, hquiet, hheld, ?_⟩
  cases origin with
  | qr => intro session h; cases h
  | wifi session => exact hkept session rfl (by simpa [Plugin.ownsSession] using howns)

/-- The trail of a phase survives what happens elsewhere. -/
theorem Trail.append {phase : Phase K} (h : Trail s log phase)
    (hknown : ∀ origin, phase.origin = some origin → Known s origin) (he : Elsewhere s s' new) :
    Trail s' (log ++ new) phase := by
  have hpending : ∀ {origin request context milestones},
      Pending s log origin request context milestones → Known s origin →
      Pending s' (log ++ new) origin request context milestones := by
    intro origin request context milestones h hknown
    simpa using h.append hknown he (List.nil_sublist new)
  cases phase with
  | entered | timely | owned => exact Consumed.append h he.quiet
  | installed origin request context => exact hpending h (hknown origin rfl)
  | armed a | keyed a | completed a => exact hpending h (hknown a.origin rfl)
  | unexpired a =>
      obtain ⟨now, hnow, h⟩ := h
      exact ⟨now, hnow, hpending h (hknown a.origin rfl)⟩
  | leaving a opened | clearing a opened =>
      cases opened with
      | false => trivial
      | true => exact Released.append h (hknown a.origin rfl) he
  | released origin request | signing origin request =>
      exact Released.append h (hknown origin rfl) he
  | responding request => exact Sealed.append h he.quiet
  | verifying | late | failed | probing | probe | probed => trivial

end Trails

section Steps

variable {s s' : Plugin K} {log new : List (Entry K)}

theorem sessionKept_nil (origin : Origin) : SessionKept origin ([] : List (Entry K)) :=
  fun _ _ => by simp

/-- A step that leaves the session alone and at most clears the slot. -/
theorem Elsewhere.of_milestone (hslot : s'.activeAuthenticationContext =
      s.activeAuthenticationContext ∨ s'.activeAuthenticationContext = none)
    (hsession : s'.wifiSession = s.wifiSession) (hquiet : Quiet new)
    (hbackground : Entry.background ∉ new) (hkept : ∀ origin, SessionKept origin new) :
    Elsewhere s s' new where
  quiet := hquiet
  held context hheld := by
    rcases hslot with hsame | hnone
    · exact ⟨hsame ▸ hheld, hbackground⟩
    · simp [hnone] at hheld
  kept session _ h := ⟨hsession ▸ h, hkept _⟩

/-- The blocks of the rest of the plugin, the timer and the invalidations. -/
theorem act_elsewhere (s : Plugin K) (e : Event) (he : ∀ readings, e ≠ .work readings) :
    Elsewhere s (s.act e).1 (s.act e).2.toList := by
  have hsame : ∀ s' : Plugin K, s'.activeAuthenticationContext = s.activeAuthenticationContext →
      s'.wifiSession = s.wifiSession → Elsewhere s s' [] :=
    fun s' hslot hsession => .of_milestone (Or.inl hslot) hsession quiet_nil (by simp) sessionKept_nil
  cases e with
  | applicationDidEnterBackground =>
      refine ⟨?_, fun context h => ?_, fun session _ h => ⟨h, ?_⟩⟩
      · simp [Quiet, Plugin.act, Entry.isUse]
      · simp [Plugin.act, Plugin.takeContext] at h
      · intro session' _
        simp [Plugin.act]
  | acceptAutomaticWifi =>
      refine ⟨quiet_nil, fun context h => ⟨h, by simp [Plugin.act]⟩, fun session hknown h => ?_⟩
      -- The installed session is a new one.
      obtain rfl : s.sessions = session := by simpa [Plugin.act] using h
      exact absurd hknown (lt_irrefl _)
  | automaticWifiDisconnected session =>
      refine ⟨by simp [Quiet, Plugin.act, Entry.isUse], fun context h => ?_,
        fun session' _ h => ?_⟩
      · simp only [Plugin.act] at h ⊢
        split_ifs at h with hsession
        · simp [Plugin.takeContext] at h
        · exact ⟨h, by simp⟩
      · simp only [Plugin.act] at h ⊢
        split_ifs at h with hsession
        refine ⟨h, fun session'' horigin => ?_⟩
        obtain rfl : session' = session'' := by simpa using horigin
        have hne : session' ≠ session := fun heq => hsession (heq ▸ h)
        simpa using hne
  | stopWifiResources =>
      refine ⟨by simp [Quiet, Plugin.act, Entry.isUse], fun context h => ?_,
        fun session _ h => ?_⟩
      · simp only [Plugin.act] at h ⊢
        split_ifs at h with hnone
        · exact ⟨h, by simp⟩
        · simp [Plugin.takeContext] at h
      · simp only [Plugin.act] at h
        split_ifs at h with hnone
        simp [hnone] at h
  | revoke context =>
      simp only [Plugin.act]
      split_ifs <;> exact hsame _ rfl rfl
  | deadlineTimer =>
      simp only [Plugin.act]
      split
      · split_ifs <;> exact hsame _ rfl rfl
      · exact hsame _ rfl rfl
  | submit job =>
      simp only [Plugin.act]
      split
      · split_ifs <;> exact hsame _ rfl rfl
      · exact hsame _ rfl rfl
  | start =>
      simp only [Plugin.act]
      split <;> exact hsame _ rfl rfl
  | work readings => exact absurd rfl (he readings)

/-- What the log holds in every state that a run reaches. -/
structure Explained (log : List (Entry K)) (s : Plugin K) : Prop where
  trail : ∀ phase, s.running = some phase → Trail s log phase
  known : ∀ phase, s.running = some phase → ∀ origin, phase.origin = some origin → Known s origin
  queued : ∀ origin message, Job.unwrap origin message ∈ s.queue → Known s origin

@[simp] theorem running_continueWith (s : Plugin K) (phase : Phase K) :
    (s.continueWith phase).running = some phase := rfl

@[simp] theorem running_finish (s : Plugin K) : s.finish.running = none := rfl

/-- What a step leaves in place for the operation it continues. -/
private theorem elsewhere_of_same (hslot : s'.activeAuthenticationContext =
      s.activeAuthenticationContext ∨ s'.activeAuthenticationContext = none)
    (hsession : s'.wifiSession = s.wifiSession) : Elsewhere s s' ([] : List (Entry K)) :=
  .of_milestone hslot hsession quiet_nil (by simp) sessionKept_nil

private theorem elsewhere_of_entry {entry : Entry K} (hslot : s'.activeAuthenticationContext =
      s.activeAuthenticationContext) (hsession : s'.wifiSession = s.wifiSession)
    (hentry : entry.isUse = false) (hbackground : entry ≠ .background)
    (hkept : ∀ session, entry ≠ .disconnected session) (hstopped : entry ≠ .stopped) :
    Elsewhere s s' [entry] :=
  .of_milestone (Or.inl hslot) hsession (by simpa [Quiet] using hentry)
    (by simpa using hbackground.symm) fun _ session _ => by
      simpa using ⟨(hkept session).symm, hstopped.symm⟩

/-- What one action leaves in the log for the phase it leads to. -/
theorem work_trail {phase : Phase K} (readings : Readings) (h : Trail s log phase)
    (hknown : ∀ origin, phase.origin = some origin → Known s origin) :
    ∀ next, (s.work readings phase).1.running = some next →
      Trail (s.work readings phase).1 (log ++ (s.work readings phase).2.toList) next := by
  intro next hnext
  cases phase with
  | verifying origin message =>
      simp only [Plugin.work] at hnext ⊢
      split at hnext
      · simp at hnext
      · split at hnext
        · obtain rfl := Option.some.inj hnext
          exact ⟨log, [], rfl, quiet_nil⟩
        · simp at hnext
  | entered origin request =>
      simp only [Plugin.work] at hnext ⊢
      split_ifs at hnext ⊢
      · obtain rfl := Option.some.inj hnext
        exact Consumed.append h quiet_nil
      · simp at hnext
  | timely origin request =>
      simp only [Plugin.work] at hnext ⊢
      split_ifs at hnext ⊢
      · obtain rfl := Option.some.inj hnext
        exact Consumed.append h quiet_nil
      · simp at hnext
  | owned origin request =>
      simp only [Plugin.work] at hnext ⊢
      split_ifs at hnext ⊢
      · obtain rfl := Option.some.inj hnext
        obtain ⟨earlier, opening, rfl, hquiet⟩ := h
        refine ⟨earlier, opening, [], by simp, hquiet, ⟨quiet_nil, ?_, ?_⟩, List.nil_sublist _⟩
        · simp
        · exact fun _ _ _ => sessionKept_nil _
      · simp at hnext
  | installed origin request context =>
      have hpending : Pending s log origin request context [] := h
      simp only [Plugin.work] at hnext ⊢
      split at hnext
      · split_ifs at hnext ⊢
        · obtain rfl := Option.some.inj hnext
          exact hpending.append (hknown origin rfl) (elsewhere_of_same (Or.inl rfl) rfl)
            (List.nil_sublist _)
        · obtain rfl := Option.some.inj hnext
          trivial
      · obtain rfl := Option.some.inj hnext
        trivial
  | armed a =>
      have hpending : Pending s log a.origin a.request a.context [] := h
      simp only [Plugin.work] at hnext ⊢
      split_ifs at hnext ⊢
      · obtain rfl := Option.some.inj hnext
        exact hpending.append (hknown a.origin rfl) (elsewhere_of_entry rfl rfl rfl (by simp)
          (by simp) (by simp)) (List.Sublist.refl _)
      all_goals
        obtain rfl := Option.some.inj hnext
        trivial
  | failed a =>
      obtain rfl := Option.some.inj hnext
      trivial
  | keyed a =>
      have hpending : Pending s log a.origin a.request a.context [.keyCompleted a.context] := h
      simp only [Plugin.work] at hnext ⊢
      split_ifs at hnext ⊢
      · obtain rfl := Option.some.inj hnext
        exact hpending.append (hknown a.origin rfl) (elsewhere_of_entry rfl rfl rfl (by simp)
          (by simp) (by simp)) (List.Sublist.refl _)
      · obtain rfl := Option.some.inj hnext
        trivial
  | completed a =>
      have hpending : Pending s log a.origin a.request a.context
        [.keyCompleted a.context, .deadlineCompleted a.context] := h
      simp only [Plugin.work] at hnext ⊢
      split at hnext
      · obtain rfl := Option.some.inj hnext
        trivial
      · rename_i now _
        split_ifs at hnext ⊢ with hnow
        · obtain rfl := Option.some.inj hnext
          exact ⟨now, hnow, hpending.append (hknown a.origin rfl) (elsewhere_of_entry rfl rfl rfl
            (by simp) (by simp) (by simp)) (List.Sublist.refl _)⟩
        · obtain rfl := Option.some.inj hnext
          trivial
  | unexpired a =>
      obtain ⟨now, hnow, hpending⟩ := h
      simp only [Plugin.work] at hnext ⊢
      split_ifs at hnext ⊢ with hslot
      · obtain rfl := Option.some.inj hnext
        exact hpending.released hnow hslot
      · obtain rfl := Option.some.inj hnext
        trivial
  | leaving a opened =>
      simp only [Plugin.work] at hnext ⊢
      obtain rfl := Option.some.inj hnext
      cases opened with
      | false => trivial
      | true => exact Released.append h (hknown a.origin rfl) (elsewhere_of_same (Or.inl rfl) rfl)
  | clearing a opened =>
      cases opened with
      | false => simp [Plugin.work] at hnext
      | true =>
          simp only [Plugin.work, if_true] at hnext ⊢
          obtain rfl := Option.some.inj hnext
          refine Released.append h (hknown a.origin rfl) (elsewhere_of_same ?_ ?_)
          · split_ifs
            · exact Or.inr rfl
            · exact Or.inl rfl
          · split_ifs <;> rfl
  | released origin request =>
      simp only [Plugin.work] at hnext ⊢
      split_ifs at hnext ⊢
      · obtain rfl := Option.some.inj hnext
        exact Released.append h (hknown origin rfl) (elsewhere_of_same (Or.inl rfl) rfl)
      · simp at hnext
  | signing origin request =>
      simp only [Plugin.work] at hnext ⊢
      split_ifs at hnext ⊢
      · obtain rfl := Option.some.inj hnext
        exact ⟨origin, s.wifiSession, log, [], rfl, quiet_nil⟩
      all_goals simp at hnext
  | late | responding | probed => simp [Plugin.work] at hnext
  | probing | probe =>
      obtain rfl := Option.some.inj hnext
      trivial

theorem work_origin {phase : Phase K} (readings : Readings) :
    ∀ next, (s.work readings phase).1.running = some next → ∀ origin, next.origin = some origin →
      phase.origin = some origin := by
  intro next hnext origin horigin
  cases phase <;> simp only [Plugin.work] at hnext <;> (repeat' split at hnext) <;>
    simp_all [Plugin.continueWith, Plugin.finish] <;> subst hnext <;> simp_all [Phase.origin]

theorem work_queue (phase : Phase K) (readings : Readings) :
    (s.work readings phase).1.queue = s.queue ∧
      (s.work readings phase).1.sessions = s.sessions := by
  cases phase <;> simp only [Plugin.work] <;> (repeat' split) <;> exact ⟨rfl, rfl⟩

theorem trail_setDeadline {phase : Phase K} {d : AuthenticationDeadline}
    (h : Trail s log phase) : Trail s log (phase.setDeadline d) := by
  cases phase with
  | leaving a opened => cases opened <;> exact h
  | _ => exact h

theorem origin_setDeadline (phase : Phase K) (d : AuthenticationDeadline) :
    (phase.setDeadline d).origin = phase.origin := by
  cases phase <;> rfl

theorem Known.mono {origin : Origin} (h : Known s origin) (hle : s.sessions ≤ s'.sessions) :
    Known s' origin :=
  fun session horigin => (h session horigin).trans_le hle

/-- Outside the crypto queue's actions, the running operation stays, up to its deadline, or is the
first of the queue. -/
theorem act_running (s : Plugin K) (e : Event) (he : ∀ readings, e ≠ .work readings) :
    ∀ next, (s.act e).1.running = some next →
      (∃ phase, s.running = some phase ∧ (next = phase ∨ ∃ d, next = phase.setDeadline d)) ∨
      ∃ job ∈ s.queue, next = Phase.first job := by
  intro next hnext
  have hsame : s.running = some next → (∃ phase, s.running = some phase ∧
      (next = phase ∨ ∃ d, next = phase.setDeadline d)) ∨
      ∃ job ∈ s.queue, next = Phase.first job := fun h => Or.inl ⟨next, h, Or.inl rfl⟩
  cases e with
  | applicationDidEnterBackground | acceptAutomaticWifi => exact hsame hnext
  | automaticWifiDisconnected | stopWifiResources | revoke =>
      simp only [Plugin.act] at hnext
      split_ifs at hnext <;> exact hsame hnext
  | submit job =>
      simp only [Plugin.act] at hnext
      split at hnext
      · split_ifs at hnext <;> exact hsame hnext
      · exact hsame hnext
  | deadlineTimer =>
      simp only [Plugin.act] at hnext
      split at hnext
      · split_ifs at hnext
        · obtain ⟨phase, hphase, rfl⟩ := Option.map_eq_some_iff.mp hnext
          exact Or.inl ⟨phase, hphase, Or.inr ⟨_, rfl⟩⟩
        · exact hsame hnext
      · exact hsame hnext
  | start =>
      simp only [Plugin.act] at hnext
      split at hnext
      · rename_i job queue _ hqueue
        obtain rfl := Option.some.inj hnext
        exact Or.inr ⟨job, hqueue ▸ List.mem_cons_self, rfl⟩
      · exact hsame hnext
  | work readings => exact absurd rfl (he readings)

theorem act_sessions (s : Plugin K) (e : Event) : s.sessions ≤ (s.act e).1.sessions := by
  cases e with
  | work readings =>
      simp only [Plugin.act]
      split
      · exact (work_queue _ readings).2.ge
      · exact le_rfl
  | acceptAutomaticWifi => exact Nat.le_succ _
  | applicationDidEnterBackground => exact le_rfl
  | automaticWifiDisconnected | stopWifiResources | revoke | deadlineTimer | submit | start =>
      simp only [Plugin.act]
      repeat' split
      all_goals exact le_rfl

theorem act_queued (s : Plugin K) (e : Event) {origin : Origin} {message : List Byte}
    (h : Job.unwrap origin message ∈ (s.act e).1.queue) :
    Job.unwrap origin message ∈ s.queue ∨ Known s origin := by
  cases e with
  | work readings =>
      simp only [Plugin.act] at h
      split at h
      · exact Or.inl ((work_queue _ readings).1 ▸ h)
      · exact Or.inl h
  | submit job =>
      simp only [Plugin.act] at h
      split at h
      · rename_i session message'
        split_ifs at h with hsession
        · rcases List.mem_append.mp h with h | h
          · exact Or.inl h
          · obtain ⟨rfl, -⟩ : origin = .wifi session ∧ message = message' := by simpa using h
            exact Or.inr fun session' horigin => by simp_all
        · exact Or.inl h
      · rename_i hqr
        rcases List.mem_append.mp h with h | h
        · exact Or.inl h
        · obtain rfl := List.mem_singleton.mp h
          exact Or.inr fun session horigin => (hqr session message (horigin ▸ rfl)).elim
  | acceptAutomaticWifi | applicationDidEnterBackground => exact Or.inl h
  | automaticWifiDisconnected | stopWifiResources | revoke | deadlineTimer =>
      simp only [Plugin.act] at h
      repeat' split at h
      all_goals exact Or.inl h
  | start =>
      simp only [Plugin.act] at h
      split at h
      · rename_i hqueue
        exact Or.inl (hqueue ▸ List.mem_cons_of_mem _ h)
      · exact Or.inl h

private theorem explained_elsewhere {e : Event} (h : Explained log s)
    (he : ∀ readings, e ≠ .work readings) : Explained (log ++ (s.emit e).toList) (s.act e).1 := by
  have hknown : ∀ {origin}, Known s origin → Known (s.act e).1 origin :=
    fun hknown => hknown.mono (act_sessions s e)
  refine ⟨fun next hnext => ?_, fun next hnext origin horigin => hknown ?_,
    fun origin message hjob => ?_⟩
  · rcases act_running s e he next hnext with ⟨phase, hphase, hsame⟩ | ⟨job, hjob, rfl⟩
    · have htrail := (h.trail phase hphase).append (h.known phase hphase) (act_elsewhere s e he)
      rcases hsame with rfl | ⟨d, rfl⟩
      · exact htrail
      · exact trail_setDeadline htrail
    · cases job <;> trivial
  · rcases act_running s e he next hnext with ⟨phase, hphase, rfl | ⟨d, rfl⟩⟩ | ⟨job, hjob, rfl⟩
    · exact h.known next hphase origin horigin
    · exact h.known phase hphase origin (origin_setDeadline phase d ▸ horigin)
    · cases job with
      | doctorRunAgreement => cases horigin
      | unwrap origin' message =>
          obtain rfl := Option.some.inj horigin
          exact h.queued _ message hjob
  · exact (act_queued s e hjob).elim (fun hjob => hknown (h.queued origin message hjob)) hknown

private theorem explained_work {readings : Readings} (h : Explained log s) :
    Explained (log ++ (s.emit (.work readings)).toList) (s.act (.work readings)).1 := by
  cases hrunning : s.running with
  | none =>
      simpa [Plugin.act, Plugin.emit, hrunning] using h
  | some phase =>
      have hknown := h.known phase hrunning
      have htrail := work_trail readings (h.trail phase hrunning) hknown
      obtain ⟨hqueue, hsessions⟩ := work_queue (s := s) phase readings
      simp only [Plugin.act, Plugin.emit, hrunning]
      refine ⟨htrail, fun next hnext origin horigin => ?_, fun origin message hjob => ?_⟩
      · exact (hknown origin (work_origin readings next hnext origin horigin)).mono hsessions.ge
      · exact (h.queued origin message (hqueue ▸ hjob)).mono hsessions.ge

theorem explained_step {e : Event} (h : Explained log s) (hstep : s.step e = some s') :
    Explained (log ++ (s.emit e).toList) s' := by
  obtain rfl := Option.some.inj hstep
  cases e with
  | work readings => exact explained_work h
  | _ => exact explained_elsewhere h fun _ he => by cases he

/-- A step that seals or presents a response has its authorisation in the log. -/
theorem justified_step {e : Event} {entry : Entry K} (h : Explained log s)
    (hemit : s.emit e = some entry) : Justified log entry := by
  cases e with
  | work readings =>
      cases hrunning : s.running with
      | none => simp [Plugin.emit, Plugin.act, hrunning] at hemit
      | some phase =>
          have htrail := h.trail phase hrunning
          simp only [Plugin.emit, Plugin.act, hrunning] at hemit
          cases phase with
          | signing origin request =>
              simp only [Plugin.work] at hemit
              split_ifs at hemit with howns
              · obtain rfl := Option.some.inj hemit
                refine ⟨Released.authorised htrail howns, ?_⟩
                rintro session rfl
                simpa [Plugin.ownsSession] using howns
              · obtain rfl := Option.some.inj hemit
                refine ⟨Released.authorised htrail howns, ?_⟩
                rintro session rfl
                simpa [Plugin.ownsSession] using howns
          | responding request =>
              simp only [Plugin.work] at hemit
              split_ifs at hemit
              obtain rfl := Option.some.inj hemit
              exact htrail
          | _ =>
              simp only [Plugin.work] at hemit
              repeat' split at hemit
              all_goals cases hemit
              all_goals trivial
  | _ =>
      simp only [Plugin.emit, Plugin.act] at hemit
      repeat' split at hemit
      all_goals cases hemit
      all_goals trivial

theorem context_setDeadline (phase : Phase K) (d : AuthenticationDeadline) :
    (phase.setDeadline d).context = phase.context := by
  cases phase <;> rfl

private theorem Invalidated.of_step (h : Invalidated s) (hcontexts : s'.contexts = s.contexts)
    (hinvalidated : s.invalidated ⊆ s'.invalidated)
    (hphase : ∀ context, s.running.bind Phase.context = some context →
      s'.running.bind Phase.context = some context ∨ context ∈ s'.invalidated) :
    Invalidated s' := by
  intro context hcontext
  rcases h context (hcontexts ▸ hcontext) with hused | hgone
  · exact hphase context hused
  · exact Or.inr (hinvalidated hgone)

/-- The new context of an action is in use, or has been invalidated by it. -/
private theorem Invalidated.of_new (h : Invalidated s) (hcontexts : s'.contexts = s.contexts + 1)
    (hinvalidated : s.invalidated ⊆ s'.invalidated)
    (hphase : s.running.bind Phase.context = none)
    (hnew : s'.running.bind Phase.context = some s.contexts ∨ s.contexts ∈ s'.invalidated) :
    Invalidated s' := by
  intro context hcontext
  rcases Nat.lt_succ_iff_lt_or_eq.mp (hcontexts ▸ hcontext) with hlt | rfl
  · rcases h context hlt with hused | hgone
    · simp [hphase] at hused
    · exact Or.inr (hinvalidated hgone)
  · exact hnew

private theorem subset_revokeExpired (a : Authentication K) (d : AuthenticationDeadline) :
    s.invalidated ⊆ (s.revokeExpired a d).invalidated := by
  simp only [Plugin.revokeExpired]
  split_ifs
  · exact List.subset_cons_self _ _
  · exact List.Subset.refl _

/-- An action keeps its context in use or leaves it invalidated. -/
theorem work_invalidated {phase : Phase K} (readings : Readings) (hrunning : s.running = some phase)
    (h : Invalidated s) : Invalidated (s.work readings phase).1 := by
  cases phase with
  | owned origin request =>
      simp only [Plugin.work]
      split_ifs
      · exact h.of_new rfl (List.Subset.refl _) (by simp [hrunning, Phase.context])
          (Or.inl rfl)
      · exact h.of_new rfl (List.subset_cons_self _ _) (by simp [hrunning, Phase.context])
          (Or.inr List.mem_cons_self)
  | probing =>
      exact h.of_new rfl (List.Subset.refl _) (by simp [hrunning, Phase.context]) (Or.inl rfl)
  | failed a =>
      refine h.of_step rfl (subset_revokeExpired a _) fun context hcontext => Or.inl ?_
      simpa [Plugin.work, hrunning, Phase.context] using hcontext
  | keyed a =>
      simp only [Plugin.work]
      split
      · refine h.of_step rfl (List.Subset.refl _) fun context hcontext => Or.inl ?_
        simpa [hrunning, Phase.context] using hcontext
      · refine h.of_step rfl (subset_revokeExpired a _) fun context hcontext => Or.inl ?_
        simpa [hrunning, Phase.context] using hcontext
  | _ =>
      simp only [Plugin.work]
      repeat' split
      all_goals
        refine h.of_step rfl ?_ fun context hcontext => ?_
        · simp [Plugin.continueWith, Plugin.finish, Plugin.invalidate, Plugin.clearContext]
        · simp_all [Plugin.continueWith, Plugin.invalidate, Phase.context]

theorem act_invalidated (e : Event) (h : Invalidated s) : Invalidated (s.act e).1 := by
  cases e with
  | work readings =>
      simp only [Plugin.act]
      split
      · exact work_invalidated readings ‹_› h
      · exact h
  | acceptAutomaticWifi | applicationDidEnterBackground => exact h
  | automaticWifiDisconnected | stopWifiResources | submit =>
      simp only [Plugin.act]
      repeat' split
      all_goals exact h
  | revoke context =>
      simp only [Plugin.act]
      split_ifs
      · exact fun found hfound => (h found hfound).imp_right (List.mem_cons_of_mem _)
      · exact h
  | deadlineTimer =>
      simp only [Plugin.act]
      split
      · split_ifs
        · intro found hfound
          refine (h found hfound).imp_left fun hphase => ?_
          obtain ⟨phase, hrunning, hphase⟩ := Option.bind_eq_some_iff.mp hphase
          simp [hrunning, context_setDeadline, hphase]
        · exact h
      · exact h
  | start =>
      simp only [Plugin.act]
      split
      · rename_i hrunning _
        intro found hfound
        refine (h found hfound).imp_left fun hphase => ?_
        simp [hrunning] at hphase
      · exact h

end Steps

/-- From any pairing files, in every run: a response is sealed only through one completed
authorisation of one consumed request, none is presented that was not sealed, and every context
that is not in use has been invalidated. -/
theorem file_key_release (files : Directory) (events : List Event) (s : Plugin K)
    (hrun : Machine.run Plugin.step (.initial files) events = some s) :
    (∀ (log : List (Entry K)) entry later,
      Machine.emitted Plugin.step Plugin.emit (.initial files) events = log ++ entry :: later →
        Justified log entry) ∧ Invalidated s := by
  have hstart : Explained [] (Plugin.initial files : Plugin K) :=
    ⟨fun _ h => (by cases h), fun _ h => (by cases h), fun _ _ h => (by cases h)⟩
  refine ⟨fun log entry later hlog => ?_, ?_⟩
  · have hjustified : ∀ (log : List (Entry K)) entry later,
        [] ++ Machine.emitted Plugin.step Plugin.emit (.initial files) events =
          log ++ entry :: later → Justified log entry :=
      Machine.emitted_justified (fun _ _ _ _ h hstep => explained_step h hstep)
        (fun _ _ _ _ _ h _ hemit => justified_step h hemit) hstart (by simp)
    exact hjustified log entry later hlog
  · refine Machine.run_preserves (fun _ e _ h hstep => ?_) (fun _ h => absurd h (Nat.not_lt_zero _))
      hrun
    exact Option.some.inj hstep ▸ act_invalidated e h

section Sample

/-- The pairing of the sample keys. -/
def samplePairingRecord : PairingRecord where
  desktopId := Bytes.replicate 16 1
  identityId := Bytes.replicate 16 2
  desktopLabel := "laptop"
  recipient := "age1phone1qypkk9737tsjcsj8lz7wdetr53q0yacr0kqjm6en5r62zw29mzvv99sa27n9c"
  desktopSigningPublicKey := compressed sampleCryptoKit SampleKey.desktopSigning
  desktopSelectionPublicKey := compressed sampleCryptoKit SampleKey.desktopSelection
  phoneSigningPublicKey := compressed sampleCryptoKit SampleKey.phoneSigning
  offerDigest := Bytes.replicate 32 4
  transcriptFingerprint := Bytes.replicate 32 4

def samplePayload : List Byte :=
  (Cbor.Item.array [.unsigned 2, .unsigned 3, .unsigned 1, .bytes (List.replicate 16 3),
    .bytes (List.replicate 16 2), .bytes (List.replicate 16 1),
    .bytes (compressed sampleCryptoKit SampleKey.desktopSelection).1,
    .array [.text "phone-p256-v1", .array [.text "Al7L5NGmMwpEyPfvlR1L8WXmxrch762phftBZhvG5/1s"],
      .bytes (List.replicate 32 5)],
    .bytes (List.replicate 32 6), .unsigned 1100, .null]).encode

def sampleRequestSignature : List Byte :=
  Cbor.bigEndian 32 0x8e533b6fa0bf7b4625bb30667c01fb607ef9f8b8a80fef5b300628703187b2a3 ++
    Cbor.bigEndian 32 0x7fd9acf06238336150b7afd7a8b32c25bb0c5881a1e5bbeccd0fdc8cd221b908

/-- A request that expires at 1100, signed by the sample desktop. -/
def sampleRequest : List Byte := encodeSigned samplePayload sampleRequestSignature

/-- The sample CryptoKit, with the signature and the digest of the sample request. -/
def sampleRequestKit : CryptoKit :=
  { sampleCryptoKit with
    isValidSignature := fun (key : SampleKey) message signature =>
      decide (key = SampleKey.desktopSigning ∧
        message = domainInput requestSignatureDomain samplePayload ∧
        signature.1 = sampleRequestSignature)
    sha256 := fun input =>
      if input = domainInput requestDigestDomain sampleRequest then
        ⟨Cbor.bigEndian 32 0x2c4e7b6b9fc428b9a2f12f46fc8590ff7348ea754024ccec8420d0e3ffb57ee8,
          Cbor.bigEndian_length _ _⟩
      else sampleCryptoKit.sha256 input }

def sampleFiles : Directory :=
  AList.singleton (stateURL sampleRequestKit samplePairingRecord.desktopId
    samplePairingRecord.identityId) (encode (initialState samplePairingRecord 1000))

/-- Every reading succeeds, at one second of each clock after the given ones. -/
def sampleWork (wall uptime : ℕ) : Event := .work ⟨some wall, some uptime, [], true, false⟩

/-- One unwrap over Wi-Fi, the timer of its deadline after it, and a disconnect. -/
def sampleEvents : List Event :=
  [.acceptAutomaticWifi, .submit (.unwrap (.wifi 0) sampleRequest), .start] ++
    (List.range 13).map (fun i => sampleWork (1001 + i) (20 + i)) ++
    [.deadlineTimer, .applicationDidEnterBackground, .automaticWifiDisconnected 0, sampleWork 1020 50]

/-- The sample unwrap consumes its request, seals one response to it and presents it. -/
theorem file_key_release_wifi : ∃ s : Plugin sampleRequestKit, Machine.run Plugin.step (.initial sampleFiles) sampleEvents =
      some s ∧
    (Machine.emitted Plugin.step Plugin.emit (.initial sampleFiles : Plugin sampleRequestKit)
      sampleEvents).map Entry.isUse = [true, false, false, false, false, false, true, false, false, false] ∧
    (∀ (log : List (Entry sampleRequestKit)) entry later,
      Machine.emitted Plugin.step Plugin.emit (.initial sampleFiles) sampleEvents =
        log ++ entry :: later → Justified log entry) ∧ Invalidated s :=
  ⟨_, rfl, by decide +kernel, file_key_release sampleFiles sampleEvents _ rfl⟩

end Sample

end AgePluginPhone.Ios.PhoneIdentityPlugin
