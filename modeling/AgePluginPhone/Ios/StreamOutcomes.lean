import AgePluginPhone.Ios.StreamCallbacks
import AgePluginPhone.Library.Splits

/-!
# The outcomes of an iOS stream session

Over every order of its events a session completes once, with a whole message or a failure, calls
a disconnect handler once and only for a disconnect that it recorded, and has one response written.
-/

namespace AgePluginPhone.Ios.StreamSession

open Library Threads
open AgePluginPhone.Ios.Stream (StreamPurpose StreamTransportError decodeHeader)

/-- Whether a callback tells that the peer closed or lost the connection. -/
def Note.signals : Note → Bool
  | .received _ complete error => complete || error.isSome
  | .changed _ => true
  | _ => false

/-- Whether an action brings on the end of the session after such a callback. -/
def Action.Ends : Action → Prop
  | .disconnected _ | .handlePeerDisconnectAfterDelivery => True
  | .identify _ _ peerClosed | .finish (.ok _) _ peerClosed => peerClosed = true
  | .finish (.error failure) _ _ => failure ≠ .transport .timeout
  | _ => False

def Note.bytes : Note → List Byte
  | .received data _ _ => data
  | _ => []

/-- The bytes that the connection has handed over. -/
def receivedBytes (notes : List Note) : List Byte := notes.flatMap Note.bytes

/-- The bytes that were received begin with a valid header and as many bytes as it declares. -/
def Whole (purpose : StreamPurpose) (notes : List Note) (body : List Byte) : Prop :=
  ∃ id header, header ++ body <+: receivedBytes notes ∧
    decodeHeader header purpose 1 = .ok (id, body.length)

def Note.watching : Note → Option ℕ
  | .watched handler => some handler
  | _ => none

/-- The handler that was passed to `watchPeerDisconnect` last. -/
def lastWatched (notes : List Note) : Option ℕ := (notes.filterMap Note.watching).getLast?

/-- The handler that waits for the recorded disconnect, or one that is passed after it. -/
def Due (notes : List Note) (handler : ℕ) : Prop :=
  ∃ earlier later, notes = earlier ++ .recorded :: later ∧
    (lastWatched earlier = some handler ∨ .watched handler ∈ later)

def Note.content : Note → Option Content
  | .sent message => some message
  | _ => none

def Note.completes : Note → Bool
  | .completed _ => true
  | _ => false

/-- The owner has called `close`, or `sendResponse`, which closes. -/
def Asked (notes : List Note) : Prop := ∃ call, .asked call ∈ notes ∧ call ≠ .watchPeerDisconnect

theorem Succeeded.append {notes : List Note} (h : Succeeded notes) (later : List Note) :
    Succeeded (notes ++ later) := by
  obtain ⟨body, hbody⟩ := h
  exact ⟨body, List.mem_append_left _ hbody⟩

theorem Ended.append {notes : List Note} (h : Ended notes) (later : List Note) :
    Ended (notes ++ later) := by
  rcases h with hrecorded | hclosed | hfailed
  · exact Or.inl (List.mem_append_left _ hrecorded)
  · exact Or.inr (Or.inl (List.mem_append_left _ hclosed))
  · obtain ⟨failure, hfailure⟩ := hfailed
    exact Or.inr (Or.inr ⟨failure, List.mem_append_left _ hfailure⟩)

@[simp] theorem receivedBytes_append (notes : List Note) (note : Note) :
    receivedBytes (notes ++ [note]) = receivedBytes notes ++ note.bytes := by
  simp [receivedBytes]

theorem Whole.append {purpose : StreamPurpose} {notes : List Note} {body : List Byte}
    (h : Whole purpose notes body) (note : Note) : Whole purpose (notes ++ [note]) body := by
  obtain ⟨id, header, hprefix, hdecode⟩ := h
  rw [Whole, receivedBytes_append]
  exact ⟨id, header, hprefix.trans (List.prefix_append _ _), hdecode⟩

namespace PhoneStreamSession

variable {s : PhoneStreamSession} {notes : List Note} {pending : Multiset Action}

section Monitoring

/-- What watches over the peer after delivery, and where its disconnect has come to. -/
structure Monitoring (notes : List Note) (s : PhoneStreamSession) (pending : Multiset Action) :
    Prop where
  monitor : .monitorPeerDisconnect ∈ pending → Succeeded notes
  receiving : s.receiving = some .monitor → Succeeded notes
  handle : .handlePeerDisconnectAfterDelivery ∈ pending → Succeeded notes
  watched : Succeeded notes → s.terminal = true ∨ .handlePeerDisconnectAfterDelivery ∈ pending ∨
    .monitorPeerDisconnect ∈ pending ∨ s.receiving = some .monitor
  lost : ∀ note ∈ notes, note.signals = true → Ended notes ∨ ∃ action ∈ pending, action.Ends

variable {t : PhoneStreamSession} {note : Note} {action : Action} {next : List Action}

/-- Where the watch over the peer stays as it is. -/
def Undisturbed (s t : PhoneStreamSession) (action : Action) : Prop :=
  action ≠ .handlePeerDisconnectAfterDelivery ∧ action ≠ .monitorPeerDisconnect ∧
    (s.terminal = true → t.terminal = true) ∧
    (s.receiving = some .monitor → t.receiving = some .monitor)

theorem Monitoring.step (h : Monitoring notes s (action ::ₘ pending))
    (hmonitor : .monitorPeerDisconnect ∈ next ∨ .handlePeerDisconnectAfterDelivery ∈ next ∨
      (t.receiving = some .monitor ∧ s.receiving ≠ some .monitor) → Succeeded (notes ++ [note]))
    (hwatched : Succeeded (notes ++ [note]) →
      (t.terminal = true ∨ .handlePeerDisconnectAfterDelivery ∈ next ∨
        .monitorPeerDisconnect ∈ next ∨ t.receiving = some .monitor) ∨
      (Succeeded notes ∧ Undisturbed s t action))
    (hnote : note.signals = true → Ended (notes ++ [note]) ∨ ∃ action ∈ next, action.Ends)
    (hends : action.Ends → Ended (notes ++ [note]) ∨ ∃ action ∈ next, action.Ends) :
    Monitoring (notes ++ [note]) t (next + pending) := by
  constructor <;> try simp only [Multiset.mem_add, Multiset.mem_coe]
  · intro hmem
    rcases hmem with hmem | hmem
    · exact hmonitor (Or.inl hmem)
    · exact (h.monitor (Multiset.mem_cons_of_mem hmem)).append _
  · intro hreceiving
    by_cases hs : s.receiving = some .monitor
    · exact (h.receiving hs).append _
    · exact hmonitor (Or.inr (Or.inr ⟨hreceiving, hs⟩))
  · intro hmem
    rcases hmem with hmem | hmem
    · exact hmonitor (Or.inr (Or.inl hmem))
    · exact (h.handle (Multiset.mem_cons_of_mem hmem)).append _
  · intro hnotes
    rcases hwatched hnotes with hnow | ⟨hbefore, hhandle, hmon, hterminal, hreceiving⟩
    · exact hnow.imp_right (Or.imp Or.inl (Or.imp_left Or.inl))
    · rcases h.watched hbefore with hs | hmem | hmem | hs
      · exact Or.inl (hterminal hs)
      · exact Or.inr (Or.inl (Or.inr ((Multiset.mem_cons.mp hmem).resolve_left hhandle.symm)))
      · exact Or.inr (Or.inr (Or.inl (Or.inr ((Multiset.mem_cons.mp hmem).resolve_left hmon.symm))))
      · exact Or.inr (Or.inr (Or.inr (hreceiving hs)))
  · have hmore (hlost : Ended (notes ++ [note]) ∨ ∃ action ∈ next, action.Ends) :
        Ended (notes ++ [note]) ∨ ∃ action, (action ∈ next ∨ action ∈ pending) ∧ action.Ends := by
      rcases hlost with hover | hnext
      · exact Or.inl hover
      · obtain ⟨action, hmem, haction⟩ := hnext
        exact Or.inr ⟨action, Or.inl hmem, haction⟩
    intro other hother hsignals
    rcases List.mem_append.mp hother with hother | hother
    · rcases h.lost other hother hsignals with hover | ⟨action, hmem, haction⟩
      · exact Or.inl (hover.append _)
      · rcases Multiset.mem_cons.mp hmem with rfl | hmem
        · exact hmore (hends haction)
        · exact Or.inr ⟨action, Or.inr hmem, haction⟩
    · obtain rfl := List.mem_singleton.mp hother
      exact hmore (hnote hsignals)

/-- A step that has nothing to do with the peer. -/
theorem Monitoring.quiet (h : Monitoring notes s (action ::ₘ pending)) (haction : ¬ action.Ends)
    (hmonitor : action ≠ .monitorPeerDisconnect) (hnote : note.signals = false)
    (hdelivered : ∀ body, note ≠ .delivered (.ok body)) (hterminal : t.terminal = s.terminal)
    (hreceiving : t.receiving = s.receiving)
    (hnext : .monitorPeerDisconnect ∉ next ∧ .handlePeerDisconnectAfterDelivery ∉ next) :
    Monitoring (notes ++ [note]) t (next + pending) := by
  refine h.step ?_ ?_ (by simp [hnote]) (fun hends => absurd hends haction)
  · rintro (hmem | hmem | hnew)
    · exact absurd hmem hnext.1
    · exact absurd hmem hnext.2
    · exact absurd (hreceiving ▸ hnew.1) hnew.2
  · intro hsucceeded
    obtain ⟨body, hmem⟩ := hsucceeded
    have hbody := (List.mem_append.mp hmem).resolve_right fun hlast =>
      hdelivered body (List.mem_singleton.mp hlast).symm
    refine Or.inr ⟨⟨body, hbody⟩, ?_, hmonitor, hterminal ▸ id, hreceiving ▸ id⟩
    rintro rfl
    exact haction trivial

theorem Monitoring.idle (h : Monitoring notes s pending) : Monitoring notes s (.cancel ::ₘ pending) where
  monitor hmem := h.monitor (by simpa using hmem)
  receiving := h.receiving
  handle hmem := h.handle (by simpa using hmem)
  watched hnotes := by simpa using h.watched hnotes
  lost note hnote hsignals := (h.lost note hnote hsignals).imp_right fun hends => by
    obtain ⟨action, hmem, haction⟩ := hends
    exact ⟨action, Multiset.mem_cons_of_mem hmem, haction⟩

/-- One thread reads the request, and the session has decided what its flags say. -/
def Base (notes : List Note) (s : PhoneStreamSession) (pending : Multiset Action) : Prop :=
  reading.total notes s pending ≤ 1 ∧ Delivery notes s pending

theorem base_keeps : system.Keeps Base := System.KeepsOver.and reading_keeps delivery_keeps.over

/-- Once the body is delivered nothing reads the request any more. -/
theorem Base.exclusive (h : Base notes s pending) (hsucceeded : Succeeded notes) :
    reading.ofState s = 0 ∧ ∀ action ∈ pending, reading.ofAction action = 0 := by
  obtain ⟨body, hbody⟩ := hsucceeded
  exact Weight.exclusive_note h.1 hbody rfl

private theorem succeeded_of_append {note : Note} (h : Succeeded (notes ++ [note]))
    (hnote : ∀ body, note ≠ .delivered (.ok body)) : Succeeded notes := by
  obtain ⟨body, hmem⟩ := h
  exact ⟨body, (List.mem_append.mp hmem).resolve_right fun hlast =>
    hnote body (List.mem_singleton.mp hlast).symm⟩

theorem monitoring_keeps : system.KeepsOver Base Monitoring where
  arrive {notes s pending event effect} hbase h heffect := by
    cases arrive_cases heffect with
    | ready hready =>
        refine h.idle.step (by simp) ?_ (by simp [Note.signals]) (by simp [Action.Ends])
        intro hnotes
        have hnone := (hbase.exclusive (succeeded_of_append hnotes (by simp))).1
        simp [reading, hready] at hnone
    | @received data complete error before after next hreceiving hcallback =>
        have hbusy (hnotes : Succeeded (notes ++ [.received data complete error])) :
            before = .monitor := by
          have hnone := (hbase.exclusive (succeeded_of_append hnotes (by simp))).1
          cases before with
          | monitor => rfl
          | header accumulated => simp [reading, hreceiving] at hnone
          | body count peerClosed accumulated => simp [reading, hreceiving] at hnone
        cases hcallback with
        | moreHeader hcomplete herror | moreBody hcomplete herror =>
            exact h.idle.step (by simp) (fun hnotes => by cases hbusy hnotes)
              (by simp [Note.signals, hcomplete, herror]) (by simp [Action.Ends])
        | header herror hdecode =>
            refine h.idle.step (by simp) (fun hnotes => by cases hbusy hnotes) (fun hsignals => ?_)
              (by simp [Action.Ends])
            have hcomplete : complete = true := by simpa [Note.signals, herror] using hsignals
            exact Or.inr ⟨_, List.mem_singleton_self _, hcomplete⟩
        | body hlength herror =>
            refine h.idle.step (by simp) (fun hnotes => by cases hbusy hnotes) ?_
              (by simp [Action.Ends])
            simp only [Note.signals, herror, Option.isSome_none, Bool.or_false]
            rintro rfl
            exact Or.inr ⟨_, List.mem_singleton_self _, Bool.or_true _⟩
        | headerFailed hfailure | bodyFailed hfailure =>
            exact h.idle.step (by simp) (fun hnotes => by cases hbusy hnotes)
              (fun _ => Or.inr ⟨_, List.mem_singleton_self _, hfailure⟩) (by simp [Action.Ends])
        | disconnected =>
            exact h.idle.step (fun _ => (h.receiving hreceiving).append _)
              (fun _ => Or.inl (Or.inr (Or.inl (List.mem_singleton_self _))))
              (fun _ => Or.inr ⟨_, List.mem_singleton_self _, trivial⟩) (by simp [Action.Ends])
        | silent hcomplete herror =>
            exact h.idle.step (fun _ => (h.receiving hreceiving).append _)
              (fun _ => Or.inl (Or.inr (Or.inr (Or.inl (List.mem_singleton_self _)))))
              (by simp [Note.signals, hcomplete, herror]) (by simp [Action.Ends])
    | changed error =>
        refine h.idle.step (by simp) (fun hnotes => Or.inr ⟨succeeded_of_append hnotes (by simp), ?_⟩)
          (fun _ => Or.inr ⟨_, List.mem_singleton_self _, trivial⟩) (by simp [Action.Ends])
        exact ⟨by simp, by simp, id, id⟩
    | _ =>
        exact h.idle.quiet (by simp [Action.Ends]) (by simp) rfl (by simp) rfl rfl (by simp)
  perform {notes s pending action effect} hbase h heffect := by
    have hreading (hnotes : Succeeded notes) (haction : reading.ofAction action = 1) : False := by
      have hnone := (hbase.exclusive hnotes).2 action (Multiset.mem_cons_self _ _)
      omega
    cases perform_cases heffect with
    | identifyPassed hended =>
        refine h.step (by simp) (fun hnotes => ?_) (by simp [Note.signals])
          fun _ => Or.inl ((hbase.2.terminal hended).append _)
        exact (hreading (succeeded_of_append hnotes (by simp)) rfl).elim
    | identifyFailed hopen =>
        refine h.step (by simp) (fun hnotes => ?_) (by simp [Note.signals]) (by simp [Action.Ends])
        exact (hreading (succeeded_of_append hnotes (by simp)) rfl).elim
    | identifyEmpty hopen =>
        refine h.step (by simp) (fun hnotes => ?_) (by simp [Note.signals])
          fun hends => Or.inr ⟨_, List.mem_singleton_self _, hends⟩
        exact (hreading (succeeded_of_append hnotes (by simp)) rfl).elim
    | identify hopen hlength =>
        refine h.step (by simp) (fun hnotes => ?_) (by simp [Note.signals]) (by simp [Action.Ends])
        exact (hreading (succeeded_of_append hnotes (by simp)) rfl).elim
    | @finishPassed result close peerClosed hover =>
        refine h.step (by simp) (fun hnotes => Or.inr ⟨succeeded_of_append hnotes (by simp), ?_⟩)
          (by simp [Note.signals]) fun hends => Or.inl ?_
        · exact ⟨by simp, by simp, id, id⟩
        · rcases hover with hdelivered | hended
          · obtain ⟨first, hfirst⟩ := hbase.2.delivered.mp hdelivered
            cases first with
            | error failure => exact Or.inr (Or.inr ⟨failure, List.mem_append_left _ hfirst⟩)
            | ok body =>
                refine (hreading ⟨body, hfirst⟩ ?_).elim
                cases result with
                | ok other => rfl
                | error failure => simpa [reading, Action.Ends] using hends
          · exact (hbase.2.terminal hended).append _
    | finishClosing result hwaiting hopen =>
        refine h.step (by simp) (fun _ => Or.inl (Or.inl rfl)) (by simp [Note.signals]) fun _ => ?_
        cases result with
        | error failure => exact Or.inl (Or.inr (Or.inr ⟨failure, by simp⟩))
        | ok body =>
            have hclose := hbase.2.closes _ _ _ (Multiset.mem_cons_self _ _)
            simp at hclose
    | finishDisconnected result hwaiting hopen =>
        obtain ⟨body, rfl⟩ := (hbase.2.closes _ _ _ (Multiset.mem_cons_self _ _)).mp rfl
        exact h.step (fun _ => ⟨body, by simp⟩) (fun _ => Or.inl (Or.inr (Or.inl (by simp))))
          (by simp [Note.signals]) fun _ => Or.inr ⟨.handlePeerDisconnectAfterDelivery, by simp, trivial⟩
    | finish result hwaiting hopen =>
        obtain ⟨body, rfl⟩ := (hbase.2.closes _ _ _ (Multiset.mem_cons_self _ _)).mp rfl
        exact h.step (fun _ => ⟨body, by simp⟩) (fun _ => Or.inl (Or.inr (Or.inr (Or.inl (by simp)))))
          (by simp [Note.signals]) (by simp [Action.Ends])
    | disconnectedPassed hended =>
        refine h.step (by simp) (fun hnotes => Or.inr ⟨succeeded_of_append hnotes (by simp), ?_⟩)
          (by simp [Note.signals]) fun _ => Or.inl ((hbase.2.terminal hended).append _)
        exact ⟨by simp, by simp, id, id⟩
    | @disconnectedEarly error hwaiting hopen =>
        exact h.step (by simp) (fun _ => Or.inl (Or.inl rfl)) (by simp [Note.signals])
          fun _ => Or.inl (Or.inr (Or.inr ⟨error, by simp⟩))
    | disconnected | handle =>
        exact h.step (by simp [recordDisconnect]) (fun _ => Or.inl (Or.inl rfl))
          (by simp [recordDisconnect, Note.signals]) fun _ => Or.inl (Or.inl (by simp [recordDisconnect]))
    | handlePassed hover =>
        have hnotes := h.handle (Multiset.mem_cons_self _ _)
        obtain ⟨body, hbody⟩ := hnotes
        have hended : s.terminal = true := by
          refine hover.resolve_right fun hwaiting => ?_
          have hdelivered := hbase.2.delivered.mpr ⟨_, hbody⟩
          rw [hwaiting] at hdelivered
          cases hdelivered
        exact h.step (by simp) (fun _ => Or.inl (Or.inl hended)) (by simp [Note.signals])
          fun _ => Or.inl ((hbase.2.terminal hended).append _)
    | monitor =>
        have hnotes := h.monitor (Multiset.mem_cons_self _ _)
        exact h.step (fun _ => hnotes.append _) (fun _ => Or.inl (Or.inr (Or.inr (Or.inr rfl))))
          (by simp [Note.signals]) (by simp [Action.Ends])
    | close hopen =>
        exact h.step (by simp) (fun _ => Or.inl (Or.inl rfl)) (by simp [Note.signals])
          (by simp [Action.Ends])
    | _ => exact h.quiet (by simp [Action.Ends]) (by simp) rfl (by simp) rfl rfl (by simp)

end Monitoring

section Reading

/-- How far the request has been read, in the bytes that were received. -/
structure Reading (purpose : StreamPurpose) (notes : List Note) (s : PhoneStreamSession)
    (pending : Multiset Action) : Prop where
  same : s.purpose = purpose
  fresh : s.ready = false → receivedBytes notes = []
  header : ∀ accumulated, s.receiving = some (.header accumulated) → receivedBytes notes = accumulated
  identify : ∀ id length peerClosed, .identify id length peerClosed ∈ pending →
    decodeHeader (receivedBytes notes) purpose 1 = .ok (id, length)
  body : ∀ count peerClosed accumulated, s.receiving = some (.body count peerClosed accumulated) →
    ∃ id header, receivedBytes notes = header ++ accumulated ∧
      decodeHeader header purpose 1 = .ok (id, count)
  finish : ∀ body close peerClosed, .finish (.ok body) close peerClosed ∈ pending →
    Whole purpose notes body
  delivered : ∀ body, .delivered (.ok body) ∈ notes → Whole purpose notes body

variable {purpose : StreamPurpose} {t : PhoneStreamSession} {note : Note} {action : Action}
  {next : List Action}

theorem Reading.drop (h : Reading purpose notes s (action ::ₘ pending)) :
    Reading purpose notes s pending :=
  { h with
    identify := fun id length peerClosed hmem =>
      h.identify id length peerClosed (Multiset.mem_cons_of_mem hmem)
    finish := fun body close peerClosed hmem =>
      h.finish body close peerClosed (Multiset.mem_cons_of_mem hmem) }

/-- A step that receives nothing. -/
theorem Reading.step (h : Reading purpose notes s pending) (hbytes : note.bytes = [])
    (hpurpose : t.purpose = s.purpose) (hready : t.ready = false → s.ready = false)
    (hheader : ∀ accumulated, t.receiving = some (.header accumulated) →
      receivedBytes notes = accumulated)
    (hbody : ∀ count peerClosed accumulated, t.receiving = some (.body count peerClosed accumulated) →
      ∃ id header, receivedBytes notes = header ++ accumulated ∧
        decodeHeader header purpose 1 = .ok (id, count))
    (hidentify : ∀ id length peerClosed, .identify id length peerClosed ∉ next)
    (hfinish : ∀ body close peerClosed, .finish (.ok body) close peerClosed ∈ next →
      Whole purpose notes body)
    (hdelivered : ∀ body, note = .delivered (.ok body) → Whole purpose notes body) :
    Reading purpose (notes ++ [note]) t (next + pending) := by
  have hsame : receivedBytes (notes ++ [note]) = receivedBytes notes := by
    rw [receivedBytes_append, hbytes, List.append_nil]
  have hwhole (body) : Whole purpose (notes ++ [note]) body ↔ Whole purpose notes body := by
    rw [Whole, hsame, Whole]
  constructor <;> simp only [hsame, hwhole, hpurpose, Multiset.mem_add, Multiset.mem_coe]
  · exact h.same
  · exact fun ht => h.fresh (hready ht)
  · exact hheader
  · exact fun id length peerClosed hmem =>
      h.identify id length peerClosed (hmem.resolve_left (hidentify id length peerClosed))
  · exact hbody
  · exact fun body close peerClosed hmem =>
      hmem.elim (hfinish body close peerClosed) (h.finish body close peerClosed)
  · intro body hmem
    rcases List.mem_append.mp hmem with hmem | hlast
    · exact h.delivered body hmem
    · exact hdelivered body (List.mem_singleton.mp hlast).symm

/-- A step that has nothing to do with the request. -/
theorem Reading.quiet (h : Reading purpose notes s pending) (hbytes : note.bytes = [])
    (hpurpose : t.purpose = s.purpose) (hready : t.ready = s.ready)
    (hreceiving : t.receiving = s.receiving ∨ t.receiving = some .monitor)
    (hnext : ∀ action ∈ next, reading.ofAction action = 0 ∨ ∃ failure close peerClosed,
      action = .finish (.error failure) close peerClosed)
    (hdelivered : ∀ body, note ≠ .delivered (.ok body)) :
    Reading purpose (notes ++ [note]) t (next + pending) := by
  refine h.step hbytes hpurpose (hready ▸ id) ?_ ?_ ?_ ?_ fun body hbody => absurd hbody (hdelivered body)
  · intro accumulated ht
    rcases hreceiving with hsame | hmonitor
    · exact h.header accumulated (hsame ▸ ht)
    · rw [hmonitor] at ht
      cases ht
  · intro count peerClosed accumulated ht
    rcases hreceiving with hsame | hmonitor
    · exact h.body count peerClosed accumulated (hsame ▸ ht)
    · rw [hmonitor] at ht
      cases ht
  · intro id length peerClosed hmem
    rcases hnext _ hmem with hweight | ⟨failure, close, closed, heq⟩
    · cases hweight
    · cases heq
  · intro body close peerClosed hmem
    rcases hnext _ hmem with hweight | ⟨failure, close, closed, heq⟩
    · cases hweight
    · cases heq

/-- One thread reads the request, and the peer is watched after its delivery. -/
def Watching (notes : List Note) (s : PhoneStreamSession) (pending : Multiset Action) : Prop :=
  Base notes s pending ∧ Monitoring notes s pending

theorem watching_keeps : system.Keeps Watching := System.KeepsOver.and base_keeps monitoring_keeps

/-- While a receive is outstanding no received header waits, and the connection is ready. -/
theorem Watching.receiving (h : Watching notes s pending) {before : Receiving}
    (hreceiving : s.receiving = some before) :
    s.ready = true ∧ ∀ id length peerClosed, .identify id length peerClosed ∉ pending := by
  cases before with
  | monitor =>
      obtain ⟨hstate, hpending⟩ := h.1.exclusive (h.2.receiving hreceiving)
      refine ⟨?_, fun id length peerClosed hmem => by cases hpending _ hmem⟩
      simpa [reading, hreceiving] using hstate
  | header | body =>
      have hle := h.1.1
      have hready : s.ready = true := by
        by_contra hfresh
        have hstate := Weight.state_le.trans hle
        simp [reading, hreceiving, hfresh] at hstate
      refine ⟨hready, fun id length peerClosed hmem => ?_⟩
      have hstate := (Weight.exclusive_action hle hmem rfl).1
      simp [reading, hready, hreceiving] at hstate

theorem reads_keeps (purpose : StreamPurpose) : system.KeepsOver Watching (Reading purpose) where
  arrive {notes s pending event effect} hbase h heffect := by
    cases arrive_cases heffect with
    | ready hready =>
        refine h.step rfl rfl (fun ht => by cases ht) ?_ (by simp) (by simp) (by simp) (by simp)
        intro accumulated ht
        simpa [h.fresh hready] using ht
    | @received data complete error before after next hreceiving hcallback =>
        obtain ⟨hready, hidle⟩ := hbase.receiving hreceiving
        have hnew (hwhole : ∀ body close peerClosed, .finish (.ok body) close peerClosed ∈ next →
              Whole purpose (notes ++ [.received data complete error]) body)
            (hidentify : ∀ id length peerClosed, .identify id length peerClosed ∈ next →
              decodeHeader (receivedBytes notes ++ data) purpose 1 = .ok (id, length))
            (hheader : ∀ accumulated, after = some (.header accumulated) →
              receivedBytes notes ++ data = accumulated)
            (hbody : ∀ count peerClosed accumulated, after = some (.body count peerClosed accumulated) →
              ∃ id header, receivedBytes notes ++ data = header ++ accumulated ∧
                decodeHeader header purpose 1 = .ok (id, count)) :
            Reading purpose (notes ++ [.received data complete error])
              { s with receiving := after } (next + pending) := by
          constructor <;> try simp only [receivedBytes_append, Note.bytes, Multiset.mem_add, Multiset.mem_coe]
          · exact h.same
          · intro hfresh
            rw [hready] at hfresh
            cases hfresh
          · exact hheader
          · exact fun id length peerClosed hmem => hmem.elim (hidentify id length peerClosed)
              fun hmem => absurd hmem (hidle id length peerClosed)
          · exact hbody
          · exact fun body close peerClosed hmem => hmem.elim (hwhole body close peerClosed)
              fun hmem => (h.finish body close peerClosed hmem).append _
          · intro body hmem
            exact (h.delivered body (by simpa using hmem)).append _
        cases hcallback with
        | moreHeader hcomplete herror =>
            refine hnew (by simp) (by simp) ?_ (by simp)
            intro accumulated hafter
            simpa [h.header _ hreceiving] using hafter
        | header herror hdecode =>
            refine hnew (by simp) ?_ (by simp) (by simp)
            intro id length peerClosed hmem
            obtain ⟨rfl, rfl, -⟩ : id = _ ∧ length = _ ∧ peerClosed = _ := by simpa using hmem
            rw [h.header _ hreceiving, ← h.same]
            exact hdecode
        | moreBody hcomplete herror =>
            refine hnew (by simp) (by simp) (by simp) ?_
            intro count peerClosed accumulated hafter
            obtain ⟨id, header, hbytes, hdecode⟩ := h.body _ _ _ hreceiving
            obtain ⟨rfl, rfl, rfl⟩ : _ = count ∧ _ = peerClosed ∧ _ = accumulated := by
              simpa using hafter
            exact ⟨id, header, by rw [hbytes, List.append_assoc], hdecode⟩
        | body hlength herror =>
            refine hnew ?_ (by simp) (by simp) (by simp)
            intro body close peerClosed hmem
            obtain ⟨id, header, hbytes, hdecode⟩ := h.body _ _ _ hreceiving
            obtain ⟨rfl, -⟩ : body = _ ∧ close = _ ∧ peerClosed = _ := by simpa using hmem
            refine ⟨id, header, ?_, by rw [hlength]; exact hdecode⟩
            rw [receivedBytes_append, hbytes, List.append_assoc]
            exact List.prefix_refl _
        | headerFailed | bodyFailed | disconnected | silent =>
            exact hnew (by simp) (by simp) (by simp) (by simp)
    | _ => exact h.quiet rfl rfl rfl (Or.inl rfl) (by simp [reading]) (by simp)
  perform {notes s pending action effect} hbase h heffect := by
    cases perform_cases heffect with
    | identifyEmpty hopen =>
        refine h.drop.step rfl rfl id h.header h.body (by simp) ?_ (by simp)
        intro body close peerClosed hmem
        obtain ⟨rfl, -⟩ : body = [] ∧ close = _ ∧ peerClosed = _ := by simpa using hmem
        refine ⟨_, receivedBytes notes, by simp, h.identify _ _ _ (Multiset.mem_cons_self _ _)⟩
    | identify hopen hlength =>
        refine h.drop.step rfl rfl id (by simp) ?_ (by simp) (by simp) (by simp)
        intro count peerClosed accumulated ht
        simp only [Option.some.injEq, Receiving.body.injEq] at ht
        obtain ⟨rfl, -, rfl⟩ := ht
        exact ⟨_, receivedBytes notes, by simp, h.identify _ _ _ (Multiset.mem_cons_self _ _)⟩
    | finishClosing result hwaiting hopen | finishDisconnected result hwaiting hopen
    | finish result hwaiting hopen =>
        refine h.drop.step rfl rfl id h.header h.body (by simp) (by simp) ?_
        intro body hbody
        obtain rfl : result = .ok body := by simpa using hbody
        exact h.finish body _ _ (Multiset.mem_cons_self _ _)
    | monitor => exact h.drop.quiet rfl rfl rfl (Or.inr rfl) (by simp) (by simp)
    | disconnected | handle =>
        exact h.drop.quiet rfl rfl rfl (Or.inl rfl) (by simp [recordDisconnect, reading]) (by simp [recordDisconnect])
    | _ => exact h.drop.quiet rfl rfl rfl (Or.inl rfl) (by simp [reading]) (by simp)

end Reading

section Handlers

/-- The registered handler, and the handlers that are owed a call. -/
structure Handlers (notes : List Note) (s : PhoneStreamSession) (pending : Multiset Action) :
    Prop where
  registered : s.terminal = false → s.disconnectHandler = lastWatched notes
  calls : ∀ handler, .callHandler handler ∈ pending → .recorded ∈ notes
  called : ∀ handler, .called handler ∈ notes → .recorded ∈ notes
  due : ∀ handler, Due notes handler → .callHandler handler ∈ pending ∨ .called handler ∈ notes

variable {t : PhoneStreamSession} {note : Note} {action : Action} {next : List Action}

private theorem lastWatched_append (notes : List Note) (note : Note) :
    lastWatched (notes ++ [note]) = note.watching.or (lastWatched notes) := by
  cases hnote : note.watching <;> simp [lastWatched, List.filterMap_append, hnote]

private theorem due_append {handler : ℕ} (h : Due (notes ++ [note]) handler)
    (hnote : note ≠ .recorded) :
    Due notes handler ∨ (note = .watched handler ∧ .recorded ∈ notes) := by
  obtain ⟨earlier, later, hsplit, hwatched⟩ := h
  rcases Splits.append_split hsplit with hfirst | hlast
  · obtain ⟨between, rfl⟩ := hfirst
    have hlater : later = between ++ [note] := by simpa using hsplit.symm
    rw [hlater, List.mem_append, List.mem_singleton] at hwatched
    rcases hwatched with hbefore | hbetween | hnow
    · exact Or.inl ⟨earlier, between, rfl, Or.inl hbefore⟩
    · exact Or.inl ⟨earlier, between, rfl, Or.inr hbetween⟩
    · exact Or.inr ⟨hnow.symm, by simp⟩
  · obtain ⟨between, -, hrest⟩ := hlast
    cases between with
    | nil => exact absurd (List.cons.inj hrest).1 hnote
    | cons first between => simp at hrest

/-- A step that records nothing. -/
theorem Handlers.step (h : Handlers notes s (action ::ₘ pending)) (hnote : note ≠ .recorded)
    (hregistered : t.terminal = false → t.disconnectHandler = note.watching.or (lastWatched notes))
    (hnext : ∀ handler, .callHandler handler ∈ next → .recorded ∈ notes)
    (hcalled : ∀ handler, note = .called handler → .recorded ∈ notes)
    (haction : ∀ handler, action = .callHandler handler → note = .called handler)
    (hdue : ∀ handler, note = .watched handler → .recorded ∈ notes → .callHandler handler ∈ next) :
    Handlers (notes ++ [note]) t (next + pending) := by
  constructor <;> try simp only [Multiset.mem_add, Multiset.mem_coe, lastWatched_append]
  · exact hregistered
  · intro handler hmem
    rcases hmem with hmem | hmem
    · exact List.mem_append_left _ (hnext handler hmem)
    · exact List.mem_append_left _ (h.calls handler (Multiset.mem_cons_of_mem hmem))
  · intro handler hmem
    rcases List.mem_append.mp hmem with hmem | hlast
    · exact List.mem_append_left _ (h.called handler hmem)
    · exact List.mem_append_left _ (hcalled handler (List.mem_singleton.mp hlast).symm)
  · intro handler hafter
    rcases due_append hafter hnote with hbefore | hnow
    · rcases h.due handler hbefore with hmem | hmem
      · rcases Multiset.mem_cons.mp hmem with heq | hmem
        · exact Or.inr (by simp [haction handler heq.symm])
        · exact Or.inl (Or.inr hmem)
      · exact Or.inr (List.mem_append_left _ hmem)
    · exact Or.inl (Or.inl (hdue handler hnow.1 hnow.2))

/-- A step that has nothing to do with handlers. -/
theorem Handlers.quiet (h : Handlers notes s (action ::ₘ pending)) (hnote : note ≠ .recorded)
    (hwatching : note.watching = none) (hcalled : ∀ handler, note ≠ .called handler)
    (hterminal : t.terminal = false → s.terminal = false)
    (hhandler : t.disconnectHandler = s.disconnectHandler)
    (hnext : ∀ handler, .callHandler handler ∉ next)
    (haction : ∀ handler, action ≠ .callHandler handler) :
    Handlers (notes ++ [note]) t (next + pending) := by
  refine h.step hnote ?_ (fun handler hmem => absurd hmem (hnext handler))
    (fun handler heq => absurd heq (hcalled handler))
    (fun handler heq => absurd heq (haction handler)) ?_
  · intro ht
    rw [hwatching, hhandler, h.registered (hterminal ht)]
    rfl
  · rintro handler rfl
    cases hwatching

theorem Handlers.record (h : Handlers notes s (action ::ₘ pending)) (hopen : s.terminal = false)
    (hfresh : .recorded ∉ notes) :
    Handlers (notes ++ [.recorded]) s.recordDisconnect.state (s.recordDisconnect.next + pending) := by
  constructor
  · intro ht
    cases ht
  · exact fun _ _ => by simp
  · exact fun _ _ => by simp
  · rintro handler ⟨earlier, later, hsplit, hwatched⟩
    obtain ⟨hnotes, -, hlater⟩ := Splits.only_unique (P := (· = .recorded)) hsplit
      (by simpa using fun note hmem => ne_of_mem_of_not_mem hmem hfresh) rfl
    subst hnotes hlater
    rcases hwatched with hlast | hmem
    · left
      simp [recordDisconnect, h.registered hopen, hlast]
    · cases hmem

theorem Handlers.idle (h : Handlers notes s pending) : Handlers notes s (.cancel ::ₘ pending) where
  registered := h.registered
  calls handler hmem := h.calls handler (by simpa using hmem)
  called := h.called
  due handler hdue := (h.due handler hdue).imp_left Multiset.mem_cons_of_mem

theorem handlers_keeps : system.KeepsOver Base Handlers where
  arrive {notes s pending event effect} hbase h heffect := by
    cases arrive_cases heffect with
    | received hreceiving hcallback =>
        cases hcallback <;>
          exact h.idle.quiet (by simp) rfl (by simp) id rfl (by simp) (by simp)
    | _ => exact h.idle.quiet (by simp) rfl (by simp) id rfl (by simp) (by simp)
  perform {notes s pending action effect} hbase h heffect := by
    have hfresh (hremote : s.remoteDisconnectedAfterDelivery = false) : .recorded ∉ notes := by
      rw [← hbase.2.recorded, hremote]
      exact Bool.false_ne_true
    have hopens (hopen : s.terminal = false) : .recorded ∉ notes := by
      intro hmem
      have hended := (hbase.2.success hmem).1
      rw [hopen] at hended
      cases hended
    cases perform_cases heffect with
    | callHandler =>
        have hrecorded := h.calls _ (Multiset.mem_cons_self _ _)
        refine h.step (by simp) h.registered (by simp) (fun _ _ => hrecorded) ?_ (by simp)
        rintro handler heq
        obtain rfl := Action.callHandler.inj heq
        rfl
    | watchRecorded hremote =>
        have hrecorded := hbase.2.recorded.mp hremote
        refine h.step (by simp) ?_ (fun _ _ => hrecorded) (by simp) (by simp) ?_
        · intro hopen
          exact absurd hrecorded (hopens hopen)
        · rintro handler heq -
          obtain rfl := Note.watched.inj heq
          exact List.mem_singleton_self _
    | watchEnded hremote hended =>
        refine h.step (by simp) ?_ (by simp) (by simp) (by simp) ?_
        · intro hopen
          rw [hended] at hopen
          cases hopen
        · exact fun _ _ hrecorded => absurd hrecorded (hfresh hremote)
    | watch hopen =>
        exact h.step (by simp) (fun _ => rfl) (by simp) (by simp) (by simp)
          fun _ _ hrecorded => absurd hrecorded (hopens hopen)
    | disconnected hdelivered hopen | handle hdelivered hopen =>
        exact h.record hopen (hopens hopen)
    | finishClosing | disconnectedEarly =>
        exact h.quiet (by simp) rfl (by simp) (fun ht => by cases ht) rfl (by simp) (by simp)
    | close hopen =>
        refine h.step (by simp) (fun ht => by cases ht) (by simp) (by simp) (by simp) (by simp)
    | _ => exact h.quiet (by simp) rfl (by simp) id rfl (by simp) (by simp)

end Handlers

section Responses

/-- Whether an action leads to a close. -/
def Closes : Action → Prop
  | .close | .sendResponse _ | .send _ => True
  | _ => False

/-- The messages that are sent, and what they and the closes come from. -/
structure Responses (notes : List Note) (s : PhoneStreamSession) (pending : Multiset Action) :
    Prop where
  sends : ∀ message, .send message ∈ pending → message.final
  sent : ∀ message, .sent message ∈ notes → message.final
  closes : ∀ action ∈ pending, Closes action → Asked notes
  sending : s.sending ≠ 0 → Asked notes

variable {t : PhoneStreamSession} {note : Note} {action : Action} {next : List Action}

private theorem asked_append (h : Asked notes) : Asked (notes ++ [note]) := by
  obtain ⟨call, hmem, hcall⟩ := h
  exact ⟨call, List.mem_append_left _ hmem, hcall⟩

theorem Responses.drop (h : Responses notes s (action ::ₘ pending)) : Responses notes s pending :=
  { h with
    sends := fun message hmem => h.sends message (Multiset.mem_cons_of_mem hmem)
    closes := fun action hmem => h.closes action (Multiset.mem_cons_of_mem hmem) }

theorem Responses.step (h : Responses notes s pending)
    (hsends : ∀ message, .send message ∈ next → message.final)
    (hsent : ∀ message, note = .sent message → message.final)
    (hcloses : (∃ action ∈ next, Closes action) ∨ (t.sending ≠ 0 ∧ s.sending = 0) →
      Asked (notes ++ [note])) :
    Responses (notes ++ [note]) t (next + pending) := by
  constructor <;> try simp only [Multiset.mem_add, Multiset.mem_coe]
  · exact fun message hmem => hmem.elim (hsends message) (h.sends message)
  · intro message hmem
    rcases List.mem_append.mp hmem with hmem | hlast
    · exact h.sent message hmem
    · exact hsent message (List.mem_singleton.mp hlast).symm
  · intro action hmem haction
    rcases hmem with hmem | hmem
    · exact hcloses (Or.inl ⟨action, hmem, haction⟩)
    · exact asked_append (h.closes action hmem haction)
  · intro ht
    by_cases hs : s.sending = 0
    · exact hcloses (Or.inr ⟨ht, hs⟩)
    · exact asked_append (h.sending hs)

/-- A step that neither sends nor leads to a close. -/
theorem Responses.quiet (h : Responses notes s pending) (hnext : ∀ action ∈ next, ¬ Closes action)
    (hsent : ∀ message, note ≠ .sent message) (hsending : t.sending = s.sending) :
    Responses (notes ++ [note]) t (next + pending) := by
  refine h.step (fun message hmem => absurd trivial (hnext _ hmem))
    (fun message heq => absurd heq (hsent message)) ?_
  rintro (hnew | hnew)
  · obtain ⟨action, hmem, haction⟩ := hnew
    exact absurd haction (hnext action hmem)
  · exact absurd (hsending ▸ hnew.1) (not_not.mpr hnew.2)

theorem responses_keeps : system.Keeps Responses where
  arrive {notes s pending event effect} _ h heffect := by
    cases arrive_cases heffect with
    | received hreceiving hcallback =>
        cases hcallback <;> exact h.quiet (by simp [Closes]) (by simp) rfl
    | processed error result hsending =>
        exact h.step (by simp) (by simp) fun _ => asked_append (h.sending hsending)
    | sendResponse body =>
        exact h.step (by simp) (by simp) fun _ => ⟨.sendResponse body, by simp, by simp⟩
    | close => exact h.step (by simp) (by simp) fun _ => ⟨.close, by simp, by simp⟩
    | _ => exact h.quiet (by simp [Closes]) (by simp) rfl
  perform {notes s pending action effect} _ h heffect := by
    cases perform_cases heffect with
    | sendRefused failure =>
        have hasked := h.closes _ (Multiset.mem_cons_self _ _) trivial
        exact h.drop.step (by simp) (by simp) fun _ => asked_append hasked
    | sendResponse message =>
        have hasked := h.closes _ (Multiset.mem_cons_self _ _) trivial
        exact h.drop.step (by simp [Content.final]) (by simp) fun _ => asked_append hasked
    | send =>
        have hasked := h.closes _ (Multiset.mem_cons_self _ _) trivial
        refine h.drop.step (by simp) ?_ fun _ => asked_append hasked
        rintro message heq
        obtain rfl := Note.sent.inj heq
        exact h.sends _ (Multiset.mem_cons_self _ _)
    | disconnected | handle =>
        exact h.drop.quiet (by simp [recordDisconnect, Closes]) (by simp [recordDisconnect]) rfl
    | _ => exact h.drop.quiet (by simp [Closes]) (by simp) rfl

end Responses

section Runs

variable {purpose : StreamPurpose} {moves : List (Move Event)}

private theorem base_start : Base [] (new purpose) 0 := by
  refine ⟨by simp [Weight.total, reading, new], ?_⟩
  constructor <;> simp [new]

private theorem watching_start : Watching [] (new purpose) 0 := by
  refine ⟨base_start, ?_⟩
  constructor <;> simp [new, Succeeded]

/-- What the notes of a run say about the session and what is pending. -/
structure Explained (purpose : StreamPurpose) (notes : List Note) (s : PhoneStreamSession)
    (pending : Multiset Action) : Prop where
  watching : Watching notes s pending
  reading : Reading purpose notes s pending
  handlers : Handlers notes s pending
  responses : Responses notes s pending

theorem explained_keeps (purpose : StreamPurpose) : system.Keeps (Explained purpose) where
  arrive _ h heffect :=
    ⟨watching_keeps.arrive trivial h.watching heffect,
      (reads_keeps purpose).arrive h.watching h.reading heffect,
      handlers_keeps.arrive h.watching.1 h.handlers heffect,
      responses_keeps.arrive trivial h.responses heffect⟩
  perform _ h heffect :=
    ⟨watching_keeps.perform trivial h.watching heffect,
      (reads_keeps purpose).perform h.watching h.reading heffect,
      handlers_keeps.perform h.watching.1 h.handlers heffect,
      responses_keeps.perform trivial h.responses heffect⟩

theorem explained_start (purpose : StreamPurpose) : Explained purpose [] (new purpose) 0 := by
  refine ⟨watching_start, ?_, ?_, ?_⟩
  · constructor <;> simp [new, receivedBytes]
  · constructor <;> simp [new, lastWatched, Due]
  · constructor <;> simp [new]

/-- The notes of a session over a run. -/
abbrev log (purpose : StreamPurpose) (moves : List (Move Event)) : List Note :=
  system.log (new purpose) moves

private theorem completion_ofNote (note : Note) :
    completion.ofNote note = if note.completes then 1 else 0 := by
  cases note <;> rfl

private theorem handling_ofNote (handler : ℕ) (note : Note) :
    (handling handler).ofNote note = if decide (note = .called handler) then 1 else 0 := by
  cases note <;> simp [handling]

/-- The completion is called at most once. -/
theorem completed_le_one (purpose : StreamPurpose) (moves : List (Move Event)) :
    ((log purpose moves).filter Note.completes).length ≤ 1 := by
  obtain ⟨s, pending, htotal⟩ := completion_keeps.log (s := new purpose) rfl moves
  exact (Weight.length_filter_le completion_ofNote).trans htotal.le

/-- Each handler is called at most once. -/
theorem called_le_one (purpose : StreamPurpose) (moves : List (Move Event)) (handler : ℕ) :
    ((log purpose moves).filter (· = .called handler)).length ≤ 1 := by
  have hstart : (handling handler).total [] (new purpose) 0 ≤ 1 := by
    simp [Weight.total, handling, new]
  obtain ⟨s, pending, htotal⟩ := (handling_keeps handler).log hstart moves
  exact (Weight.length_filter_le (handling_ofNote handler)).trans htotal

/-- What the notes before a note say for it. -/
structure Justified (purpose : StreamPurpose) (before : List Note) (note : Note) : Prop where
  completed : ∀ result, note = .completed result → .delivered result ∈ before ∧
    ∀ body, result = .ok body → Whole purpose before body
  called : ∀ handler, note = .called handler → .recorded ∈ before ∧ Succeeded before
  closed : note = .closed → Asked before

theorem log_justified {before after : List Note} {note : Note}
    (hlog : log purpose moves = before ++ note :: after) : Justified purpose before note := by
  refine (explained_keeps purpose).justified ?_ ?_ (explained_start purpose) hlog
  · intro notes s pending event effect h heffect
    cases arrive_cases heffect <;> exact ⟨by simp, by simp, by simp⟩
  · intro notes s pending action effect h heffect
    cases perform_cases heffect with
    | @complete result =>
        refine ⟨?_, by simp, by simp⟩
        intro other hother
        obtain rfl := Note.completed.inj hother
        have hdelivered := h.watching.1.2.result result (Multiset.mem_cons_self _ _)
        refine ⟨hdelivered, ?_⟩
        rintro body rfl
        exact h.reading.delivered body hdelivered
    | callHandler =>
        have hrecorded := h.handlers.calls _ (Multiset.mem_cons_self _ _)
        exact ⟨by simp, fun _ _ => ⟨hrecorded, (h.watching.1.2.success hrecorded).2⟩, by simp⟩
    | close =>
        exact ⟨by simp, by simp, fun _ => h.responses.closes _ (Multiset.mem_cons_self _ _) trivial⟩
    | disconnected | handle =>
        exact ⟨by simp [recordDisconnect], by simp [recordDisconnect], by simp [recordDisconnect]⟩
    | _ => exact ⟨by simp, by simp, by simp⟩

section Complete

variable {s : Threads.Process PhoneStreamSession Action}

theorem explained_of_run (hrun : system.run (new purpose) moves = some s) :
    Explained purpose (log purpose moves) s.state s.pending :=
  (explained_keeps purpose).run (explained_start purpose) hrun

/-- A session whose timer has fired, with nothing pending, has completed unless a close came
before the delivery. -/
theorem completed_of_run (hrun : system.run (new purpose) moves = some s)
    (htimer : s.state.timer = true) (hpending : s.pending = 0)
    (hclosed : ∀ before after, log purpose moves = before ++ .closed :: after →
      ∃ result, .delivered result ∈ before) :
    ((log purpose moves).filter Note.completes).length = 1 := by
  have hexplained := explained_of_run hrun
  have htotal : completion.total (log purpose moves) s.state s.pending = 1 :=
    completion_keeps.run rfl hrun
  have hdecided := hexplained.watching.1.2
  rw [hpending] at htotal hdecided
  have hdelivered : s.state.requestDelivered = true := by
    refine hdecided.delivered.mpr ?_
    rcases hdecided.timer htimer with hmem | hdelivered | hended
    · simp at hmem
    · exact hdecided.delivered.mp hdelivered
    · rcases hdecided.terminal hended with hrecorded | hclose | hfailed
      · obtain ⟨body, hbody⟩ := (hdecided.success hrecorded).2
        exact ⟨_, hbody⟩
      · obtain ⟨before, after, hsplit⟩ := List.append_of_mem hclose
        obtain ⟨result, hresult⟩ := hclosed before after hsplit
        exact ⟨result, by rw [hsplit]; exact List.mem_append_left _ hresult⟩
      · obtain ⟨failure, hfailure⟩ := hfailed
        exact ⟨_, hfailure⟩
  rw [Weight.length_filter completion_ofNote]
  simpa [Weight.total, completion, hdelivered] using htotal

/-- After delivery a disconnect of the peer is recorded, and the handlers are called, unless the
session was closed. -/
theorem called_of_run (hrun : system.run (new purpose) moves = some s) (hpending : s.pending = 0)
    (hsucceeded : Succeeded (log purpose moves)) {note : Note} (hnote : note ∈ log purpose moves)
    (hsignals : note.signals = true) (hclosed : .closed ∉ log purpose moves) :
    ∃ earlier later, log purpose moves = earlier ++ .recorded :: later ∧
      ∀ handler, lastWatched earlier = some handler ∨ .watched handler ∈ later →
        .called handler ∈ log purpose moves := by
  have hexplained := explained_of_run hrun
  rw [hpending] at hexplained
  have hended : Ended (log purpose moves) := by
    rcases hexplained.watching.2.lost note hnote hsignals with hended | hends
    · exact hended
    · obtain ⟨action, hmem, -⟩ := hends
      simp at hmem
  have hrecorded : .recorded ∈ log purpose moves := by
    rcases hended with hrecorded | hclose | hfailed
    · exact hrecorded
    · exact absurd hclose hclosed
    · obtain ⟨failure, hfailure⟩ := hfailed
      obtain ⟨body, hbody⟩ := hsucceeded
      cases hexplained.watching.1.2.once _ hfailure _ hbody
  obtain ⟨earlier, later, hsplit⟩ := List.append_of_mem hrecorded
  refine ⟨earlier, later, hsplit, fun handler hwatched => ?_⟩
  have hdue := hexplained.handlers.due handler ⟨earlier, later, hsplit, hwatched⟩
  exact hdue.resolve_left (by simp)

/-- An open session that has delivered and has nothing pending waits for the peer to disconnect. -/
theorem monitor_of_run (hrun : system.run (new purpose) moves = some s) (hpending : s.pending = 0)
    (hsucceeded : Succeeded (log purpose moves)) (hopen : s.state.terminal = false) :
    s.state.receiving = some .monitor := by
  have hwatched := (explained_of_run hrun).watching.2.watched hsucceeded
  simpa [hpending, hopen] using hwatched

end Complete

/-- Over every order of its events a session calls its completion at most once, and with success
only with as many bytes as a valid header before them declares; exactly once where its timer has
fired and every thread has ended, unless a close came before the delivery. A handler is called at
most once, after the request was delivered and the disconnect of the peer recorded, and then no
close has found or finds the session open. After delivery an open session waits for the disconnect;
where one is signalled and no close came first, it is recorded and the handler that is registered
or gets registered is called. At most one response is written, of messages of which none is written
after a final one. -/
theorem outcomes_once (purpose : StreamPurpose) (moves : List (Move Event))
    (written : List Content → List Content) (hsublist : ∀ sent, (written sent).Sublist sent)
    (hfinal : ∀ sent, (written sent).Pairwise fun message _ => ¬ message.final) :
    ((log purpose moves).filter Note.completes).length ≤ 1 ∧
      (∀ before body after, log purpose moves = before ++ .completed (.ok body) :: after →
        Whole purpose before body) ∧
      (∀ handler, ((log purpose moves).filter (· = .called handler)).length ≤ 1) ∧
      (∀ before handler after, log purpose moves = before ++ .called handler :: after →
        Succeeded before ∧ .recorded ∈ before ∧ .closed ∉ log purpose moves) ∧
      (∀ before after, log purpose moves = before ++ .closed :: after → Asked before) ∧
      (written ((log purpose moves).filterMap Note.content)).length ≤ 1 ∧
      ∀ s, system.run (new purpose) moves = some s → s.pending = 0 →
        (s.state.timer = true →
          (∀ before after, log purpose moves = before ++ .closed :: after →
            ∃ result, .delivered result ∈ before) →
          ((log purpose moves).filter Note.completes).length = 1) ∧
        (Succeeded (log purpose moves) →
          (s.state.terminal = false → s.state.receiving = some .monitor) ∧
          ((∃ note ∈ log purpose moves, note.signals = true) → .closed ∉ log purpose moves →
            ∃ earlier later, log purpose moves = earlier ++ .recorded :: later ∧
              ∀ handler, lastWatched earlier = some handler ∨ .watched handler ∈ later →
                .called handler ∈ log purpose moves)) := by
  obtain ⟨state, pending, hexplained⟩ :=
    (explained_keeps purpose).log (explained_start purpose) moves
  refine ⟨completed_le_one purpose moves, ?_, called_le_one purpose moves, ?_, ?_, ?_, ?_⟩
  · intro before body after hlog
    exact ((log_justified hlog).completed _ rfl).2 body rfl
  · intro before handler after hlog
    obtain ⟨hrecorded, hsucceeded⟩ := (log_justified hlog).called handler rfl
    refine ⟨hsucceeded, hrecorded, fun hclosed => ?_⟩
    have hmem : .recorded ∈ log purpose moves := by
      rw [hlog]
      exact List.mem_append_left _ hrecorded
    exact (hexplained.watching.1.2.closed hclosed).2 hmem
  · intro before after hlog
    exact (log_justified hlog).closed rfl
  · generalize hsent : (log purpose moves).filterMap Note.content = sent
    have hall : ∀ message ∈ written sent, message.final := by
      intro message hmem
      have hmem' := (hsublist sent).subset hmem
      rw [← hsent, List.mem_filterMap] at hmem'
      obtain ⟨note, hnote, hcontent⟩ := hmem'
      cases note with
      | sent other =>
          obtain rfl : other = message := Option.some.inj hcontent
          exact hexplained.responses.sent _ hnote
      | _ => cases hcontent
    have hpairwise := hfinal sent
    cases hwritten : written sent with
    | nil => simp
    | cons first rest =>
        rw [hwritten] at hall hpairwise
        cases rest with
        | nil => simp
        | cons second rest =>
            have hnone := (List.pairwise_cons.mp hpairwise).1 second List.mem_cons_self
            exact absurd (hall first List.mem_cons_self) hnone
  · intro s hrun hpending
    refine ⟨fun htimer => completed_of_run hrun htimer hpending, fun hsucceeded => ⟨?_, ?_⟩⟩
    · exact monitor_of_run hrun hpending hsucceeded
    · rintro ⟨note, hnote, hsignals⟩
      exact called_of_run hrun hpending hsucceeded hnote hsignals

section Sample

private def sampleHeader : List Byte :=
  Core.StreamMessage.magic ++ [0, 1, 2, 1] ++ List.replicate 16 7 ++ [0, 0, 0, 1]

/-- The delivery of one byte, and the answer to it. -/
private def sampleAnswer : List (Move Event) :=
  [.event .start, .event .ready, .event (.received (some sampleHeader) false none), .resume 2,
    .event (.received (some [42]) false none), .resume 3, .resume 3, .resume 3,
    .event (.call (.sendResponse [43])), .resume 4, .resume 4, .event (.contentProcessed none),
    .resume 5]

/-- The messages up to the first final one. -/
private def upToFinal : List Content → List Content
  | [] => []
  | message :: later =>
      if message.contentContext = .finalMessage ∧ message.isComplete = true then [message]
      else message :: upToFinal later

private theorem upToFinal_sublist (sent : List Content) : (upToFinal sent).Sublist sent := by
  induction sent with
  | nil => exact List.Sublist.refl _
  | cons message later ih =>
      unfold upToFinal
      split_ifs
      · exact List.Sublist.cons_cons _ (List.nil_sublist _)
      · exact ih.cons_cons _

private theorem upToFinal_pairwise (sent : List Content) :
    (upToFinal sent).Pairwise fun message _ => ¬ message.final := by
  induction sent with
  | nil => exact List.Pairwise.nil
  | cons message later ih =>
      unfold upToFinal
      split_ifs with hfinal
      · exact List.pairwise_singleton _ _
      · exact List.pairwise_cons.mpr ⟨fun _ _ => hfinal, ih⟩

theorem outcomes_once_sample :
    (upToFinal ((log .unwrap sampleAnswer).filterMap Note.content)).length ≤ 1 :=
  (outcomes_once .unwrap sampleAnswer upToFinal upToFinal_sublist
    upToFinal_pairwise).2.2.2.2.2.1

/-- A handler that is passed after a recorded disconnect is called, also after the owner's close. -/
theorem handler_called_after_close :
    log .unwrap [.event .start, .event .ready, .event (.received (some sampleHeader) false none),
        .resume 2, .event (.received (some [42]) true none), .resume 3, .resume 3, .resume 3,
        .resume 3, .event (.call .close), .resume 4, .event (.call .watchPeerDisconnect), .resume 5,
        .resume 5] =
      [.started, .ready, .received sampleHeader false none, .identified (Bytes.replicate 16 7),
        .received [42] true none, .delivered (.ok [42]), .recorded, .cancelled,
        .completed (.ok [42]), .asked .close, .passed, .asked .watchPeerDisconnect, .watched 0,
        .called 0] := by
  decide +kernel

end Sample

end Runs

end PhoneStreamSession

end AgePluginPhone.Ios.StreamSession
