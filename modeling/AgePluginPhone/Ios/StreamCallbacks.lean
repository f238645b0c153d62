import AgePluginPhone.Ios.StreamSession

/-!
# The steps of an iOS stream session

What each event and each locked section can do, the weights that no step adds to, and what the
flags of the session say about the steps before.
-/

namespace AgePluginPhone.Ios.StreamSession

open Library Threads
open AgePluginPhone.Ios.Stream (StreamPurpose StreamTransportError decodeHeader)

/-- The thread of the timer. -/
abbrev Action.timeout : Action := .finish (.error (.transport .timeout)) true false

/-- Whether a section decides how the session goes on. -/
def Note.decides : Note → Bool
  | .delivered _ | .recorded | .closed => true
  | _ => false

/-- The request has been delivered with its body. -/
def Succeeded (notes : List Note) : Prop := ∃ body, .delivered (.ok body) ∈ notes

/-- The session has ended. -/
def Ended (notes : List Note) : Prop :=
  .recorded ∈ notes ∨ .closed ∈ notes ∨ ∃ failure, .delivered (.error failure) ∈ notes

namespace PhoneStreamSession

variable {s : PhoneStreamSession} {notes : List Note} {pending : Multiset Action}
  {data : List Byte} {complete : Bool} {error : Option NWError}

section Callbacks

theorem decodeHeader_eq_error {header : List Byte} {purpose : StreamPurpose} {direction : Byte}
    {error : StreamTransportError} (h : decodeHeader header purpose direction = .error error) :
    error = .malformed := by
  simp only [decodeHeader, bind_eq_error, ensure_eq_error, pure_eq_ok, reduceCtorEq, and_false,
    exists_false, or_false] at h
  rcases h with hguard | ⟨_, -, hsession | ⟨_, -, hlength⟩⟩
  · exact hguard.2.symm
  · unfold Stream.sessionOf at hsession
    split_ifs at hsession
    exact (Except.error.inj hsession).symm
  · exact hlength.2.symm

/-- A callback of `receiveExactly` fails, has all its bytes or goes on. -/
theorem collect_cases (count : ℕ) (accumulated data : List Byte) (complete : Bool)
    (error : Option NWError) :
    (∃ failure, failure ≠ .transport .timeout ∧
      collect count accumulated data complete error = .inl (.error failure, false)) ∨
    (error = none ∧ (accumulated ++ data).length = count ∧
      collect count accumulated data complete error = .inl (.ok (accumulated ++ data), complete)) ∨
    (error = none ∧ complete = false ∧
      collect count accumulated data complete error = .inr (accumulated ++ data)) := by
  unfold collect
  cases error with
  | some error => exact Or.inl ⟨.network error, by simp, rfl⟩
  | none =>
      dsimp only
      split_ifs with hcount hcomplete
      · exact Or.inr (Or.inl ⟨rfl, hcount, rfl⟩)
      · exact Or.inl ⟨.transport .disconnected, by simp, rfl⟩
      · exact Or.inr (Or.inr ⟨rfl, Bool.eq_false_of_not_eq_true hcomplete, rfl⟩)

/-- What a callback of `connection.receive` does with the receive that was outstanding. -/
inductive Callback (purpose : StreamPurpose) (data : List Byte) (complete : Bool)
    (error : Option NWError) : Receiving → Option Receiving → List Action → Prop
  | moreHeader {accumulated} (hcomplete : complete = false) (herror : error = none) :
      Callback purpose data complete error (.header accumulated)
        (some (.header (accumulated ++ data))) []
  | header {accumulated id length} (herror : error = none)
      (hdecode : decodeHeader (accumulated ++ data) purpose 1 = .ok (id, length)) :
      Callback purpose data complete error (.header accumulated) none [.identify id length complete]
  | headerFailed {accumulated failure} (hfailure : failure ≠ .transport .timeout) :
      Callback purpose data complete error (.header accumulated) none
        [.finish (.error failure) true false]
  | moreBody {count peerClosed accumulated} (hcomplete : complete = false) (herror : error = none) :
      Callback purpose data complete error (.body count peerClosed accumulated)
        (some (.body count peerClosed (accumulated ++ data))) []
  | body {count peerClosed accumulated} (hlength : (accumulated ++ data).length = count)
      (herror : error = none) :
      Callback purpose data complete error (.body count peerClosed accumulated) none
        [.finish (.ok (accumulated ++ data)) false (peerClosed || complete)]
  | bodyFailed {count peerClosed accumulated failure} (hfailure : failure ≠ .transport .timeout) :
      Callback purpose data complete error (.body count peerClosed accumulated) none
        [.finish (.error failure) true false]
  | disconnected :
      Callback purpose data complete error .monitor none [.handlePeerDisconnectAfterDelivery]
  | silent (hcomplete : complete = false) (herror : error = none) :
      Callback purpose data complete error .monitor none [.monitorPeerDisconnect]

theorem received_cases {effect : Effect} (h : s.received data complete error = some effect) :
    ∃ before after next, s.receiving = some before ∧
      effect = ⟨.received data complete error, { s with receiving := after }, next⟩ ∧
      Callback s.purpose data complete error before after next := by
  unfold received at h
  split at h
  · cases h
  · rename_i accumulated hreceiving
    split_ifs at h
    rcases collect_cases 28 accumulated data complete error with hfailed | hwhole | hmore
    · obtain ⟨failure, hfailure, hcollect⟩ := hfailed
      rw [hcollect] at h
      exact ⟨_, _, _, hreceiving, (Option.some.inj h).symm, .headerFailed hfailure⟩
    · obtain ⟨herror, -, hcollect⟩ := hwhole
      rw [hcollect] at h
      obtain rfl := Option.some.inj h
      refine ⟨_, _, _, hreceiving, rfl, ?_⟩
      cases hdecode : decodeHeader (accumulated ++ data) s.purpose 1 with
      | ok fields =>
          simp only [headerReceived, hdecode]
          exact .header herror hdecode
      | error failure =>
          simp only [headerReceived, hdecode]
          exact .headerFailed (by simp [decodeHeader_eq_error hdecode])
    · obtain ⟨herror, hcomplete, hcollect⟩ := hmore
      rw [hcollect] at h
      exact ⟨_, _, _, hreceiving, (Option.some.inj h).symm, .moreHeader hcomplete herror⟩
  · rename_i count peerClosed accumulated hreceiving
    split_ifs at h
    rcases collect_cases count accumulated data complete error with hfailed | hwhole | hmore
    · obtain ⟨failure, hfailure, hcollect⟩ := hfailed
      rw [hcollect] at h
      exact ⟨_, _, _, hreceiving, (Option.some.inj h).symm, .bodyFailed hfailure⟩
    · obtain ⟨herror, hlength, hcollect⟩ := hwhole
      rw [hcollect] at h
      exact ⟨_, _, _, hreceiving, (Option.some.inj h).symm, .body hlength herror⟩
    · obtain ⟨herror, hcomplete, hcollect⟩ := hmore
      rw [hcollect] at h
      exact ⟨_, _, _, hreceiving, (Option.some.inj h).symm, .moreBody hcomplete herror⟩
  · rename_i hreceiving
    split_ifs at h with hlong hlost
    · exact ⟨_, _, _, hreceiving, (Option.some.inj h).symm, .disconnected⟩
    · obtain ⟨herror, hcomplete, -⟩ : error.isSome = false ∧ complete = false ∧ data = [] := by
        simpa using hlost
      exact ⟨_, _, _, hreceiving, (Option.some.inj h).symm,
        .silent hcomplete (Option.isSome_eq_false_iff.mp herror |> Option.isNone_iff_eq_none.mp)⟩

/-- What an event of the connection, the timer or the owner does. -/
inductive Arrival (s : PhoneStreamSession) : Effect → Prop
  | start : Arrival s ⟨.started, { s with started := true }, []⟩
  | ready (hready : s.ready = false) :
      Arrival s ⟨.ready, { s with ready := true, receiving := some (.header []) }, []⟩
  | received {data complete error before after next} (hreceiving : s.receiving = some before)
      (hcallback : Callback s.purpose data complete error before after next) :
      Arrival s ⟨.received data complete error, { s with receiving := after }, next⟩
  | changed (error : Failure) : Arrival s ⟨.changed error, s, [.disconnected error]⟩
  | timer : Arrival s ⟨.timer, { s with timer := true }, [.timeout]⟩
  | processed (error : Option NWError) (result : Except Failure Unit) (hsending : s.sending ≠ 0) :
      Arrival s ⟨.processed error, { s with sending := s.sending - 1 }, [.close, .respond result]⟩
  | watchPeerDisconnect : Arrival s ⟨.asked .watchPeerDisconnect,
      { s with handlers := s.handlers + 1 }, [.watchPeerDisconnect s.handlers]⟩
  | sendResponse (body : List Byte) :
      Arrival s ⟨.asked (.sendResponse body), s, [.sendResponse body]⟩
  | close : Arrival s ⟨.asked .close, s, [.close]⟩

theorem arrive_cases {event : Event} {effect : Effect} (h : s.arrive event = some effect) :
    Arrival s effect := by
  cases event with
  | start =>
      simp only [arrive] at h
      split_ifs at h
      exact Option.some.inj h ▸ .start
  | ready =>
      simp only [arrive] at h
      split_ifs at h with hready
      exact Option.some.inj h ▸ .ready (Bool.eq_false_of_not_eq_true hready.2)
  | received data complete error =>
      obtain ⟨before, after, next, hreceiving, rfl, hcallback⟩ := received_cases h
      exact .received hreceiving hcallback
  | failed error =>
      simp only [arrive] at h
      split_ifs at h
      exact Option.some.inj h ▸ .changed _
  | cancelled =>
      simp only [arrive] at h
      split_ifs at h
      exact Option.some.inj h ▸ .changed _
  | timer =>
      simp only [arrive] at h
      split_ifs at h
      exact Option.some.inj h ▸ .timer
  | contentProcessed error =>
      simp only [arrive] at h
      split_ifs at h with hsending
      exact Option.some.inj h ▸ .processed error _ hsending
  | call call =>
      cases call with
      | watchPeerDisconnect => exact Option.some.inj h ▸ .watchPeerDisconnect
      | sendResponse body => exact Option.some.inj h ▸ .sendResponse body
      | close => exact Option.some.inj h ▸ .close

/-- What an action of a thread does. -/
inductive Performance (s : PhoneStreamSession) : Action → Effect → Prop
  | identifyPassed {id length peerClosed} (hended : s.terminal = true) :
      Performance s (.identify id length peerClosed) ⟨.passed, s, []⟩
  | identifyFailed {id length} (hopen : s.terminal = false) :
      Performance s (.identify id length true) ⟨.identified id, { s with sessionId := some id },
        [.finish (.error (.transport .disconnected)) true false]⟩
  | identifyEmpty {id peerClosed} (hopen : s.terminal = false) :
      Performance s (.identify id 0 peerClosed) ⟨.identified id, { s with sessionId := some id },
        [.finish (.ok []) false peerClosed]⟩
  | identify {id length} (hopen : s.terminal = false) (hlength : 0 < length) :
      Performance s (.identify id length false) ⟨.identified id,
        { s with sessionId := some id, receiving := some (.body length false []) }, []⟩
  | finishPassed {result close peerClosed} (hover : s.requestDelivered = true ∨ s.terminal = true) :
      Performance s (.finish result close peerClosed) ⟨.passed, s, []⟩
  | finishClosing (result) {peerClosed} (hwaiting : s.requestDelivered = false)
      (hopen : s.terminal = false) :
      Performance s (.finish result true peerClosed) ⟨.delivered result,
        { s with requestDelivered := true, terminal := true, sessionId := none },
        [.cancel, .complete result]⟩
  | finishDisconnected (result) (hwaiting : s.requestDelivered = false) (hopen : s.terminal = false) :
      Performance s (.finish result false true) ⟨.delivered result,
        { s with requestDelivered := true },
        [.handlePeerDisconnectAfterDelivery, .complete result]⟩
  | finish (result) (hwaiting : s.requestDelivered = false) (hopen : s.terminal = false) :
      Performance s (.finish result false false) ⟨.delivered result,
        { s with requestDelivered := true }, [.monitorPeerDisconnect, .complete result]⟩
  | disconnectedPassed {error : Failure} (hended : s.terminal = true) :
      Performance s (.disconnected error) ⟨.passed, s, []⟩
  | disconnectedEarly {error : Failure} (hwaiting : s.requestDelivered = false) (hopen : s.terminal = false) :
      Performance s (.disconnected error) ⟨.delivered (.error error),
        { s with terminal := true, sessionId := none, requestDelivered := true },
        [.cancel, .complete (.error error)]⟩
  | disconnected {error : Failure} (hdelivered : s.requestDelivered = true) (hopen : s.terminal = false) :
      Performance s (.disconnected error) s.recordDisconnect
  | handlePassed (hover : s.terminal = true ∨ s.requestDelivered = false) :
      Performance s .handlePeerDisconnectAfterDelivery ⟨.passed, s, [.cancel]⟩
  | handle (hdelivered : s.requestDelivered = true) (hopen : s.terminal = false) :
      Performance s .handlePeerDisconnectAfterDelivery s.recordDisconnect
  | monitor : Performance s .monitorPeerDisconnect
      ⟨.monitoring, { s with receiving := some .monitor }, []⟩
  | cancel : Performance s .cancel ⟨.cancelled, s, []⟩
  | complete {result} : Performance s (.complete result) ⟨.completed result, s, []⟩
  | callHandler {handler} : Performance s (.callHandler handler) ⟨.called handler, s, []⟩
  | watchRecorded {handler} (hrecorded : s.remoteDisconnectedAfterDelivery = true) :
      Performance s (.watchPeerDisconnect handler) ⟨.watched handler, s, [.callHandler handler]⟩
  | watchEnded {handler} (hopen : s.remoteDisconnectedAfterDelivery = false)
      (hended : s.terminal = true) :
      Performance s (.watchPeerDisconnect handler) ⟨.watched handler, s, []⟩
  | watch {handler} (hopen : s.terminal = false) :
      Performance s (.watchPeerDisconnect handler)
        ⟨.watched handler, { s with disconnectHandler := some handler }, []⟩
  | sendRefused {body} (failure : Failure) :
      Performance s (.sendResponse body) ⟨.passed, s, [.close, .respond (.error failure)]⟩
  | sendResponse {body} (message : List Byte) :
      Performance s (.sendResponse body) ⟨.passed, s, [.send ⟨message, .finalMessage, true⟩]⟩
  | send {message} : Performance s (.send message)
      ⟨.sent message, { s with sending := s.sending + 1 }, []⟩
  | closePassed (hended : s.terminal = true) : Performance s .close ⟨.passed, s, []⟩
  | close (hopen : s.terminal = false) : Performance s .close ⟨.closed,
      { s with terminal := true, sessionId := none, disconnectHandler := none }, [.cancel]⟩
  | respond {result} : Performance s (.respond result) ⟨.responded result, s, []⟩

theorem perform_cases {action : Action} {effect : Effect} (h : s.perform action = effect) :
    Performance s action effect := by
  subst h
  cases action with
  | identify id length peerClosed =>
      simp only [perform, PhoneStreamSession.identify]
      split_ifs with hended hfailed hempty
      · exact .identifyPassed hended
      · obtain ⟨rfl, -⟩ := hfailed
        exact .identifyFailed (Bool.eq_false_of_not_eq_true hended)
      · subst hempty
        simp only [bodyReceived, Bool.or_false]
        exact .identifyEmpty (Bool.eq_false_of_not_eq_true hended)
      · have hlength := Nat.pos_of_ne_zero hempty
        obtain rfl : peerClosed = false := by simpa [hlength] using hfailed
        exact .identify (Bool.eq_false_of_not_eq_true hended) hlength
  | finish result close peerClosed =>
      simp only [perform, PhoneStreamSession.finish]
      split_ifs with hover hclose hclosed
      · exact .finishPassed hover
      · obtain ⟨hwaiting, hopen⟩ := not_or.mp hover
        subst hclose
        exact .finishClosing _ (Bool.eq_false_of_not_eq_true hwaiting)
          (Bool.eq_false_of_not_eq_true hopen)
      · obtain ⟨hwaiting, hopen⟩ := not_or.mp hover
        obtain rfl := Bool.eq_false_of_not_eq_true hclose
        subst hclosed
        exact .finishDisconnected _ (Bool.eq_false_of_not_eq_true hwaiting)
          (Bool.eq_false_of_not_eq_true hopen)
      · obtain ⟨hwaiting, hopen⟩ := not_or.mp hover
        obtain rfl := Bool.eq_false_of_not_eq_true hclose
        obtain rfl := Bool.eq_false_of_not_eq_true hclosed
        exact .finish _ (Bool.eq_false_of_not_eq_true hwaiting) (Bool.eq_false_of_not_eq_true hopen)
  | disconnected error =>
      simp only [perform, PhoneStreamSession.disconnected]
      split_ifs with hended hdelivered
      · exact .disconnectedPassed hended
      · exact .disconnected hdelivered (Bool.eq_false_of_not_eq_true hended)
      · exact .disconnectedEarly (Bool.eq_false_of_not_eq_true hdelivered)
          (Bool.eq_false_of_not_eq_true hended)
  | handlePeerDisconnectAfterDelivery =>
      simp only [perform, handlePeerDisconnectAfterDelivery]
      split_ifs with hlost
      · exact .handle hlost.2 (Bool.eq_false_of_not_eq_true hlost.1)
      · refine .handlePassed ?_
        cases hended : s.terminal with
        | true => exact Or.inl rfl
        | false => exact Or.inr (by simpa [hended] using hlost)
  | watchPeerDisconnect handler =>
      simp only [perform, watchPeerDisconnect]
      split_ifs with hrecorded hended
      · exact .watchRecorded hrecorded
      · exact .watchEnded (Bool.eq_false_of_not_eq_true hrecorded) hended
      · exact .watch (Bool.eq_false_of_not_eq_true hended)
  | sendResponse body =>
      simp only [perform, PhoneStreamSession.sendResponse]
      split
      · exact .sendRefused _
      · split
        · exact .sendResponse _
        · exact .sendRefused _
  | close =>
      simp only [perform, PhoneStreamSession.close]
      split_ifs with hended
      · exact .closePassed hended
      · exact .close (Bool.eq_false_of_not_eq_true hended)
  | monitorPeerDisconnect => exact .monitor
  | cancel => exact .cancel
  | complete result => exact .complete
  | callHandler handler => exact .callHandler
  | send message => exact .send
  | respond result => exact .respond

end Callbacks

section Weights

/-- The completion is at hand until the request is delivered, then pending, then called. -/
def completion : Weight PhoneStreamSession Action Note where
  ofNote note := match note with
    | .completed _ => 1
    | _ => 0
  ofState s := if s.requestDelivered then 0 else 1
  ofAction action := match action with
    | .complete _ => 1
    | _ => 0

theorem completion_keeps :
    system.Keeps fun notes s pending => completion.total notes s pending = 1 := by
  refine Weight.keeps_eq 1 ?_ ?_
  · intro s event effect heffect
    cases arrive_cases heffect with
    | received hreceiving hcallback => cases hcallback <;> rfl
    | _ => rfl
  · intro s action effect heffect
    cases perform_cases heffect with
    | finishClosing _ hwaiting | finishDisconnected _ hwaiting | finish _ hwaiting
    | disconnectedEarly hwaiting => simp [Weight.ofEffect, completion, hwaiting]
    | disconnected | handle =>
        cases hhandler : s.disconnectHandler <;>
          simp [recordDisconnect, Weight.ofEffect, completion, hhandler]
    | _ => rfl

/-- A handler waits for its number, is pending, registered, or called. -/
def handling (handler : ℕ) : Weight PhoneStreamSession Action Note where
  ofNote note := match note with
    | .called other => if other = handler then 1 else 0
    | _ => 0
  ofState s := (if s.disconnectHandler = some handler then 1 else 0) +
    if s.handlers ≤ handler then 1 else 0
  ofAction action := match action with
    | .watchPeerDisconnect other | .callHandler other => if other = handler then 1 else 0
    | _ => 0

theorem handling_keeps (handler : ℕ) :
    system.Keeps fun notes s pending => (handling handler).total notes s pending ≤ 1 := by
  refine Weight.keeps_le 1 ?_ ?_
  · intro s event effect heffect
    cases arrive_cases heffect with
    | received hreceiving hcallback => cases hcallback <;> exact le_refl _
    | watchPeerDisconnect =>
        simp only [Weight.ofEffect, handling, List.map_cons, List.map_nil, List.sum_cons,
          List.sum_nil]
        split_ifs <;> omega
    | _ => exact le_refl _
  · intro s action effect heffect
    cases perform_cases heffect with
    | disconnected | handle =>
        cases hhandler : s.disconnectHandler with
        | none => simp [recordDisconnect, Weight.ofEffect, handling, hhandler]
        | some other =>
            simp [recordDisconnect, Weight.ofEffect, handling, hhandler, Nat.add_comm]
    | watch =>
        simp only [Weight.ofEffect, handling, Option.some.injEq, List.map_nil, List.sum_nil]
        omega
    | close =>
        simp only [Weight.ofEffect, handling, List.map_cons, List.map_nil, List.sum_cons,
          List.sum_nil]
        split_ifs <;> simp_all
    | watchEnded | callHandler | watchRecorded => simp [Weight.ofEffect, handling]
    | _ => exact le_refl _

/-- The request is read by one thread at a time: the connection becomes ready, a receive is
outstanding, its bytes are handled, or they have been delivered. -/
def reading : Weight PhoneStreamSession Action Note where
  ofNote note := match note with
    | .delivered (.ok _) => 1
    | _ => 0
  ofState s := (if s.ready then 0 else 1) +
    match s.receiving with
    | some (.header _) | some (.body _ _ _) => 1
    | _ => 0
  ofAction action := match action with
    | .identify _ _ _ => 1
    | .finish result _ _ => if result = .error (.transport .timeout) then 0 else 1
    | _ => 0

theorem reading_keeps :
    system.Keeps fun notes s pending => reading.total notes s pending ≤ 1 := by
  refine Weight.keeps_le 1 ?_ ?_
  · intro s event effect heffect
    cases arrive_cases heffect with
    | ready hready =>
        simp only [Weight.ofEffect, reading, hready, List.map_nil, List.sum_nil]
        simp
    | received hreceiving hcallback =>
        cases hcallback <;> simp_all [Weight.ofEffect, reading]
    | _ => simp [Weight.ofEffect, reading]
  · intro s action effect heffect
    cases perform_cases heffect with
    | finishClosing result | finishDisconnected result | finish result =>
        cases result <;> simp [Weight.ofEffect, reading]
    | disconnected | handle =>
        cases hhandler : s.disconnectHandler <;>
          simp [recordDisconnect, Weight.ofEffect, reading, hhandler]
    | monitor =>
        simp only [Weight.ofEffect, reading, List.map_nil, List.sum_nil]
        omega
    | _ => simp [Weight.ofEffect, reading]

end Weights

section Delivery

/-- What is decided, in the flags of the session and in the notes. -/
structure Delivery (notes : List Note) (s : PhoneStreamSession) (pending : Multiset Action) :
    Prop where
  delivered : s.requestDelivered = true ↔ ∃ result, .delivered result ∈ notes
  once : ∀ result, .delivered result ∈ notes → ∀ other, .delivered other ∈ notes → result = other
  result : ∀ result, .complete result ∈ pending → .delivered result ∈ notes
  closes : ∀ result close peerClosed, .finish result close peerClosed ∈ pending →
    (close = false ↔ ∃ body, result = .ok body)
  recorded : s.remoteDisconnectedAfterDelivery = true ↔ .recorded ∈ notes
  success : .recorded ∈ notes → s.terminal = true ∧ Succeeded notes
  closed : .closed ∈ notes → s.terminal = true ∧ .recorded ∉ notes
  failed : ∀ failure, .delivered (.error failure) ∈ notes → s.terminal = true
  terminal : s.terminal = true → Ended notes
  timer : s.timer = true → .timeout ∈ pending ∨ s.requestDelivered = true ∨ s.terminal = true

/-- Whether an action may be put before a thread while nothing is decided. -/
def Waits : Action → Prop
  | .complete _ => False
  | .finish result close _ => close = false ↔ ∃ body, result = .ok body
  | _ => True

variable {t : PhoneStreamSession} {note : Note} {action : Action} {next : List Action}

theorem Delivery.drop (h : Delivery notes s (action ::ₘ pending))
    (haction : action ≠ .timeout ∨ s.requestDelivered = true ∨ s.terminal = true) :
    Delivery notes s pending :=
  { h with
    result := fun result hmem => h.result result (Multiset.mem_cons_of_mem hmem)
    closes := fun result close peerClosed hmem =>
      h.closes result close peerClosed (Multiset.mem_cons_of_mem hmem)
    timer := fun ht => by
      rcases haction with haction | hover
      · exact (h.timer ht).imp_left fun hmem => (Multiset.mem_cons.mp hmem).resolve_left haction.symm
      · exact Or.inr hover }

theorem Delivery.quiet (h : Delivery notes s pending) (hnote : note.decides = false)
    (hdelivered : t.requestDelivered = s.requestDelivered) (hterminal : t.terminal = s.terminal)
    (hremote : t.remoteDisconnectedAfterDelivery = s.remoteDisconnectedAfterDelivery)
    (hnext : ∀ action ∈ next, Waits action) (htimer : t.timer = s.timer ∨ .timeout ∈ next) :
    Delivery (notes ++ [note]) t (next + pending) := by
  have hmem (other : Note) (hother : other.decides = true) :
      other ∈ notes ++ [note] ↔ other ∈ notes := by
    rw [List.mem_append, List.mem_singleton, or_iff_left_iff_imp]
    rintro rfl
    rw [hnote] at hother
    cases hother
  have hresult (result) : .delivered result ∈ notes ++ [note] ↔ .delivered result ∈ notes :=
    hmem _ rfl
  have hrecorded : .recorded ∈ notes ++ [note] ↔ .recorded ∈ notes := hmem _ rfl
  have hclosed : .closed ∈ notes ++ [note] ↔ .closed ∈ notes := hmem _ rfl
  constructor <;> simp only [Succeeded, Ended, hresult, hrecorded, hclosed, hdelivered,
    hterminal, hremote, Multiset.mem_add, Multiset.mem_coe]
  · exact h.delivered
  · exact h.once
  · exact fun result hafter => hafter.elim (fun hmem => (hnext _ hmem).elim) (h.result result)
  · exact fun result close peerClosed hafter =>
      hafter.elim (fun hmem => hnext _ hmem) (h.closes result close peerClosed)
  · exact h.recorded
  · exact h.success
  · exact h.closed
  · exact h.failed
  · exact h.terminal
  · intro ht
    rcases htimer with hsame | hmem
    · exact (h.timer (hsame ▸ ht)).imp_left Or.inr
    · exact Or.inl (Or.inl hmem)

/-- The section that delivers, in an open session that waits for the request. -/
theorem Delivery.deliver (h : Delivery notes s (action ::ₘ pending)) {result : Except Failure (List Byte)}
    (hwaiting : s.requestDelivered = false) (hopen : s.terminal = false)
    (hdelivered : t.requestDelivered = true) (hterminal : t.terminal = false ↔ ∃ body, result = .ok body)
    (hremote : t.remoteDisconnectedAfterDelivery = s.remoteDisconnectedAfterDelivery)
    (hnext : ∀ action ∈ next, action = .complete result ∨ Waits action) :
    Delivery (notes ++ [.delivered result]) t (next + pending) := by
  have hnone (other) : .delivered other ∉ notes := by
    intro hmem
    have hother := h.delivered.mpr ⟨other, hmem⟩
    rw [hwaiting] at hother
    cases hother
  have hresult (other) : .delivered other ∈ notes ++ [.delivered result] ↔ other = result := by
    simp [hnone other]
  have hrecorded : .recorded ∉ notes := by
    intro hmem
    have hended := (h.success hmem).1
    rw [hopen] at hended
    cases hended
  have hclosed : .closed ∉ notes := by
    intro hmem
    have hended := (h.closed hmem).1
    rw [hopen] at hended
    cases hended
  have hkept (other : Note) (hother : other ∉ notes) (hne : other ≠ .delivered result) :
      other ∉ notes ++ [.delivered result] := by
    simp [hother, hne]
  have hrecorded' := hkept .recorded hrecorded (by simp)
  have hclosed' := hkept .closed hclosed (by simp)
  constructor <;> simp only [Succeeded, Ended, hresult, hrecorded', hclosed', hremote,
    hdelivered, Multiset.mem_add, Multiset.mem_coe]
  · simp
  · rintro _ rfl _ rfl
    rfl
  · intro other hafter
    rcases hafter with hmem | hmem
    · exact (hnext _ hmem).elim (fun heq => Action.complete.inj heq) False.elim
    · exact absurd (h.result other (Multiset.mem_cons_of_mem hmem)) (hnone other)
  · intro other close peerClosed hafter
    rcases hafter with hmem | hmem
    · exact (hnext _ hmem).elim (fun heq => by cases heq) id
    · exact h.closes other close peerClosed (Multiset.mem_cons_of_mem hmem)
  · rw [h.recorded]
    exact iff_of_false hrecorded id
  · exact False.elim
  · exact False.elim
  · rintro failure rfl
    cases hended : t.terminal with
    | true => rfl
    | false =>
        obtain ⟨body, hbody⟩ := hterminal.mp hended
        cases hbody
  · intro hended
    cases result with
    | error failure => exact Or.inr (Or.inr ⟨failure, rfl⟩)
    | ok body =>
        have hopen' := hterminal.mpr ⟨body, rfl⟩
        rw [hended] at hopen'
        cases hopen'
  · exact fun _ => Or.inr (Or.inl trivial)

/-- The section that records the disconnect of the peer, in an open session that has delivered. -/
theorem Delivery.record (h : Delivery notes s (action ::ₘ pending))
    (hdelivered : s.requestDelivered = true) (hopen : s.terminal = false) :
    Delivery (notes ++ [.recorded]) s.recordDisconnect.state (s.recordDisconnect.next + pending) := by
  have hdrop := h.drop (Or.inr (Or.inl hdelivered))
  obtain ⟨result, hresult⟩ := h.delivered.mp hdelivered
  have hclosed : .closed ∉ notes := by
    intro hmem
    have hended := (h.closed hmem).1
    rw [hopen] at hended
    cases hended
  have hpending (other : Action) (hmem : other ∈ (s.recordDisconnect.next + pending : Multiset Action)) :
      other ∈ pending ∨ other = .cancel ∨ ∃ handler, other = .callHandler handler := by
    simp only [recordDisconnect, Multiset.mem_add, Multiset.mem_coe, List.mem_cons, List.mem_map] at hmem
    rcases hmem with (rfl | hhandler) | hmem
    · exact Or.inr (Or.inl rfl)
    · obtain ⟨handler, -, rfl⟩ := hhandler
      exact Or.inr (Or.inr ⟨handler, rfl⟩)
    · exact Or.inl hmem
  have hsuccess : Succeeded notes := by
    cases result with
    | ok body => exact ⟨body, hresult⟩
    | error failure =>
        have hended := h.failed failure hresult
        rw [hopen] at hended
        cases hended
  have hnotes (result) : .delivered result ∈ notes ++ [.recorded] ↔ .delivered result ∈ notes := by
    simp
  constructor <;> try simp only [hnotes, Succeeded]
  · exact h.delivered
  · exact h.once
  · intro result hmem
    rcases hpending _ hmem with hmem | hcancel | ⟨handler, hcall⟩
    · exact hdrop.result result hmem
    · cases hcancel
    · cases hcall
  · intro result close peerClosed hmem
    rcases hpending _ hmem with hmem | hcancel | ⟨handler, hcall⟩
    · exact hdrop.closes result close peerClosed hmem
    · cases hcancel
    · cases hcall
  · simp [recordDisconnect]
  · exact fun _ => ⟨rfl, hsuccess⟩
  · intro hmem
    simp [hclosed] at hmem
  · exact fun _ _ => rfl
  · exact fun _ => Or.inl (by simp)
  · exact fun _ => Or.inr (Or.inr rfl)

/-- The section that closes an open session. -/
theorem Delivery.close (h : Delivery notes s (action ::ₘ pending)) (hopen : s.terminal = false)
    (hdelivered : t.requestDelivered = s.requestDelivered) (hterminal : t.terminal = true)
    (hremote : t.remoteDisconnectedAfterDelivery = s.remoteDisconnectedAfterDelivery) :
    Delivery (notes ++ [.closed]) t (([.cancel] : List Action) + pending) := by
  have hrecorded : .recorded ∉ notes := by
    intro hmem
    have hended := (h.success hmem).1
    rw [hopen] at hended
    cases hended
  have hnotes (result) : .delivered result ∈ notes ++ [.closed] ↔ .delivered result ∈ notes := by
    simp
  have hrecorded' : .recorded ∈ notes ++ [.closed] ↔ .recorded ∈ notes := by simp
  constructor <;> try simp only [hnotes, hrecorded', hdelivered, hremote, hterminal]
  · exact h.delivered
  · exact h.once
  · intro result hmem
    exact h.result result (Multiset.mem_cons_of_mem (by simpa using hmem))
  · intro result close peerClosed hmem
    exact h.closes result close peerClosed (Multiset.mem_cons_of_mem (by simpa using hmem))
  · exact h.recorded
  · exact fun hmem => absurd hmem hrecorded
  · exact fun _ => ⟨trivial, hrecorded⟩
  · exact fun _ _ => trivial
  · exact fun _ => Or.inr (Or.inl (by simp))
  · exact fun _ => Or.inr (Or.inr trivial)

theorem delivery_keeps : system.Keeps Delivery where
  arrive {notes s pending event effect} _ h heffect := by
    cases arrive_cases heffect with
    | received hreceiving hcallback =>
        cases hcallback <;> exact h.quiet rfl rfl rfl rfl (by simp [Waits]) (Or.inl rfl)
    | timer => exact h.quiet rfl rfl rfl rfl (by simp [Waits]) (Or.inr (by simp))
    | _ => exact h.quiet rfl rfl rfl rfl (by simp [Waits]) (Or.inl rfl)
  perform {notes s pending action effect} _ h heffect := by
    cases perform_cases heffect with
    | finishPassed hover =>
        exact (h.drop (Or.inr hover)).quiet rfl rfl rfl rfl (by simp) (Or.inl rfl)
    | finishClosing result hwaiting hopen =>
        have hfailed := h.closes result true _ (Multiset.mem_cons_self _ _)
        exact h.deliver hwaiting hopen rfl (by simpa using hfailed) rfl (by simp [Waits])
    | finishDisconnected result hwaiting hopen =>
        have hwhole := (h.closes result false true (Multiset.mem_cons_self _ _)).mp rfl
        exact h.deliver hwaiting hopen rfl (by simpa [hopen] using hwhole) rfl (by simp [Waits])
    | finish result hwaiting hopen =>
        have hwhole := (h.closes result false false (Multiset.mem_cons_self _ _)).mp rfl
        exact h.deliver hwaiting hopen rfl (by simpa [hopen] using hwhole) rfl (by simp [Waits])
    | disconnectedEarly hwaiting hopen =>
        exact h.deliver hwaiting hopen rfl (by simp) rfl (by simp [Waits])
    | disconnected hdelivered hopen => exact h.record hdelivered hopen
    | handle hdelivered hopen => exact h.record hdelivered hopen
    | close hopen => exact h.close hopen rfl rfl rfl
    | _ =>
        exact (h.drop (Or.inl (by simp))).quiet rfl rfl rfl rfl (by simp [Waits]) (Or.inl rfl)

end Delivery

end PhoneStreamSession

end AgePluginPhone.Ios.StreamSession
