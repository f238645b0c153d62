import AgePluginPhone.Android.PairingConfirmation

/-!
# One-shot confirmation on Android

The history of a process says which sessions are over and which one is pending. A session attempts
its creation at most once, on its full fingerprint and while nothing has ended it.
-/

namespace AgePluginPhone.Android.PairingConfirmation

open Library PairingConfirmationSession

variable {p : Platform} {crypto : OfflineEnvelopeCrypto} {Storage : Type}

namespace Action

/-- The sections after which a session is over. -/
def ends (a : Action) (session : ℕ) : Bool :=
  match a with
  | .registered index (.error _) => index = session
  | .confirmed index _ _ _ _ => index = session
  | .cancelled index => index = session
  | _ => false

/-- The session's creator was called. -/
def attempts (a : Action) (session : ℕ) : Bool :=
  match a with
  | .confirmed index _ _ _ (some _) => index = session
  | _ => false

/-- The pending session after a section. -/
def slot (pending : Option ℕ) : Action → Option ℕ
  | .registered index (.ok _) => some index
  | .took _ => none
  | .tookNothing _ => none
  | _ => pending

/-- The coordinator's slot has been emptied. -/
def empties : Action → Bool
  | .took _ => true
  | .tookNothing _ => true
  | _ => false

def registers : Action → Bool
  | .registered _ (.ok _) => true
  | _ => false

theorem ends_of_attempts {a : Action} {session : ℕ} (h : a.attempts session = true) :
    a.ends session = true := by
  cases a with
  | confirmed index displayed nowUnix result created =>
      cases created with
      | none => cases h
      | some created => exact h
  | _ => cases h

theorem slot_eq_of_not_registers {a : Action} (h : a.registers = false) : a.slot none = none := by
  cases a with
  | registered index result => cases result <;> first | rfl | cases h
  | _ => rfl

end Action

/-- The pending session after a history. -/
def pendingAfter (history : List Action) : Option ℕ := history.foldl Action.slot none

theorem pendingAfter_append (history : List Action) (a : Action) :
    pendingAfter (history ++ [a]) = a.slot (pendingAfter history) := by
  simp [pendingAfter]

/-- Nothing is pending once the slot has been emptied and no session registered since. -/
theorem pendingAfter_eq_none {before between : List Action} {a : Action} (ha : a.empties = true)
    (hbetween : ∀ b ∈ between, b.registers = false) :
    pendingAfter (before ++ a :: between) = none := by
  induction between using List.reverseRecOn with
  | nil =>
      rw [pendingAfter_append]
      cases a <;> first | rfl | cases ha
  | append_singleton between b ih =>
      have hearlier : ∀ c ∈ between, c.registers = false :=
        fun c hc => hbetween c (List.mem_append_left _ hc)
      have hlist : before ++ a :: (between ++ [b]) = (before ++ a :: between) ++ [b] := by simp
      rw [hlist, pendingAfter_append, ih hearlier]
      exact Action.slot_eq_of_not_registers (hbetween b (by simp))

/-- The session was made by the factory from this transcript. -/
def Made (p : Platform) (crypto : OfflineEnvelopeCrypto) (history : List Action) (index : ℕ)
    (session : PairingConfirmationSession) : Prop :=
  ∃ signedOffer signedResponse, .began signedOffer signedResponse (.ok index) ∈ history ∧
    beginWithCreator p crypto signedOffer signedResponse = .ok { session with terminal := false }

/-- What the history says of the sessions and of the slot. -/
structure Explained (p : Platform) (crypto : OfflineEnvelopeCrypto) (history : List Action)
    (s : Process Storage) : Prop where
  made : ∀ index session, s.sessions[index]? = some session → Made p crypto history index session
  terminal : ∀ index session, s.sessions[index]? = some session →
    (session.terminal = true ↔ ∃ a ∈ history, a.ends index = true)
  known : ∀ a ∈ history, ∀ index, a.ends index = true → index < s.sessions.length
  pending : s.pending = pendingAfter history

theorem Made.mono {history later : List Action} {index : ℕ} {session : PairingConfirmationSession}
    (h : Made p crypto history index session) : Made p crypto (history ++ later) index session := by
  obtain ⟨signedOffer, signedResponse, hmem, hbegin⟩ := h
  exact ⟨signedOffer, signedResponse, List.mem_append_left _ hmem, hbegin⟩

section Steps

variable {history : List Action} {s t : Process Storage} {a : Action}

/-- A section that ends no session leaves what the history says of the sessions. -/
theorem Explained.keep (h : Explained p crypto history s) (hends : ∀ index, a.ends index = false)
    (hsessions : t.sessions = s.sessions) (hpending : t.pending = a.slot s.pending) :
    Explained p crypto (history ++ [a]) t where
  made := by
    intro index session hsession
    rw [hsessions] at hsession
    exact (h.made index session hsession).mono
  terminal := by
    intro index session hsession
    rw [hsessions] at hsession
    rw [h.terminal index session hsession]
    simp [or_and_right, exists_or, hends]
  known := by
    intro b hb index hindex
    rw [hsessions]
    rcases List.mem_append.mp hb with hb | hb
    · exact h.known b hb index hindex
    · rw [List.mem_singleton.mp hb, hends index] at hindex
      cases hindex
  pending := by rw [pendingAfter_append, hpending, h.pending]

/-- A section that ends one session. -/
theorem Explained.endSession (h : Explained p crypto history s) {index : ℕ}
    {session : PairingConfirmationSession} (hsession : s.sessions[index]? = some session)
    (hends : ∀ other, a.ends other = decide (index = other))
    (hsessions : t.sessions = s.sessions.set index session.cancel)
    (hpending : t.pending = a.slot s.pending) : Explained p crypto (history ++ [a]) t where
  made := by
    intro other found hfound
    rw [hsessions, List.getElem?_set] at hfound
    split_ifs at hfound with heq hlt
    · subst heq
      obtain rfl := Option.some.inj hfound
      exact (h.made index session hsession).mono
    · exact (h.made other found hfound).mono
  terminal := by
    intro other found hfound
    rw [hsessions, List.getElem?_set] at hfound
    split_ifs at hfound with heq hlt
    · subst heq
      obtain rfl := Option.some.inj hfound
      refine ⟨fun _ => ⟨a, by simp, by simp [hends]⟩, fun _ => rfl⟩
    · rw [h.terminal other found hfound]
      simp [or_and_right, exists_or, hends, heq]
  known := by
    intro b hb other hother
    rw [hsessions, List.length_set]
    rcases List.mem_append.mp hb with hb | hb
    · exact h.known b hb other hother
    · rw [List.mem_singleton.mp hb, hends other] at hother
      obtain rfl := of_decide_eq_true hother
      exact (List.getElem?_eq_some_iff.mp hsession).1
  pending := by rw [pendingAfter_append, hpending, h.pending]

/-- A session of the factory has not ended before it was made. -/
theorem Explained.begin (h : Explained p crypto history s) {signedOffer signedResponse : List Byte}
    {session : PairingConfirmationSession}
    (hbegin : beginWithCreator p crypto signedOffer signedResponse = .ok session)
    (ha : a = .began signedOffer signedResponse (.ok s.sessions.length))
    (hsessions : t.sessions = s.sessions ++ [session]) (hpending : t.pending = s.pending) :
    Explained p crypto (history ++ [a]) t := by
  have hopen := (beginWithCreator_eq_ok hbegin).1
  have hends : ∀ index, a.ends index = false := by
    rw [ha]
    intro index
    rfl
  refine ⟨?_, ?_, ?_, by rw [pendingAfter_append, hpending, h.pending, ha]; rfl⟩
  · intro index found hfound
    rw [hsessions, List.getElem?_append] at hfound
    split_ifs at hfound with hlt
    · exact (h.made index found hfound).mono
    · obtain ⟨hindex, rfl⟩ : index - s.sessions.length = 0 ∧ session = found := by
        simpa [List.getElem?_singleton] using hfound
      have heq : index = s.sessions.length := by omega
      refine ⟨signedOffer, signedResponse, by simp [ha, heq], ?_⟩
      rw [hbegin, ← hopen]
  · intro index found hfound
    rw [hsessions, List.getElem?_append] at hfound
    split_ifs at hfound with hlt
    · rw [h.terminal index found hfound]
      simp [or_and_right, exists_or, hends]
    · obtain ⟨-, rfl⟩ : index - s.sessions.length = 0 ∧ session = found := by
        simpa [List.getElem?_singleton] using hfound
      rw [hopen]
      refine iff_of_false (by simp) ?_
      rintro ⟨b, hb, hended⟩
      rcases List.mem_append.mp hb with hb | hb
      · exact hlt (h.known b hb index hended)
      · rw [List.mem_singleton.mp hb, hends index] at hended
        cases hended
  · intro b hb index hindex
    rw [hsessions, List.length_append]
    rcases List.mem_append.mp hb with hb | hb
    · exact Nat.lt_add_right _ (h.known b hb index hindex)
    · rw [List.mem_singleton.mp hb, hends index] at hindex
      cases hindex

/-- A section of a call is the making of a session, the emptying of the slot, or a section on one
session: its registration, when it is waiting for it, its confirmation or its cancellation. -/
theorem Process.perform_cases {event : Event Storage} (h : s.perform p crypto event = some (a, t)) :
    (∃ signedOffer signedResponse, s.beginCall p crypto signedOffer signedResponse = (a, t)) ∨
    (∃ otherwise rest, (∀ index other, rest index ≠ .begin other) ∧ s.take otherwise rest = (a, t)) ∨
    ∃ k index session u, s.sessions[index]? = some session ∧
      (u = s ∨ u = { s with running := s.running.eraseIdx k }) ∧
      (s.running[k]? = some (.begin index) ∧ u = { s with running := s.running.eraseIdx k } ∧
          u.register index session = (a, t) ∨
        (∃ displayed nowUnix creator, u.confirmSession index session displayed nowUnix creator = (a, t)) ∨
        u.cancelSession index session = (a, t)) := by
  cases event with
  | call call =>
      cases call with
      | begin signedOffer signedResponse =>
          exact Or.inl ⟨signedOffer, signedResponse, Option.some.inj h⟩
      | confirm displayed nowUnix creator =>
          exact Or.inr (Or.inl ⟨_, _, by simp, Option.some.inj h⟩)
      | cancel => exact Or.inr (Or.inl ⟨_, _, by simp, Option.some.inj h⟩)
      | sessionConfirm index displayed nowUnix creator =>
          obtain ⟨session, hsession, hconfirm⟩ := Option.map_eq_some_iff.mp h
          exact Or.inr (Or.inr ⟨0, index, session, s, hsession, Or.inl rfl,
            Or.inr (Or.inl ⟨displayed, nowUnix, creator, hconfirm⟩)⟩)
      | sessionCancel index =>
          obtain ⟨session, hsession, hcancel⟩ := Option.map_eq_some_iff.mp h
          exact Or.inr (Or.inr ⟨0, index, session, s, hsession, Or.inl rfl,
            Or.inr (Or.inr hcancel)⟩)
  | resume k =>
      obtain ⟨rest, hrest, hfinish⟩ := Option.bind_eq_some_iff.mp h
      cases rest with
      | begin index =>
          obtain ⟨session, hsession, hregister⟩ := Option.map_eq_some_iff.mp hfinish
          exact Or.inr (Or.inr ⟨k, index, session, _, hsession, Or.inr rfl,
            Or.inl ⟨hrest, rfl, hregister⟩⟩)
      | confirm index displayed nowUnix creator =>
          obtain ⟨session, hsession, hconfirm⟩ := Option.map_eq_some_iff.mp hfinish
          exact Or.inr (Or.inr ⟨k, index, session, _, hsession, Or.inr rfl,
            Or.inr (Or.inl ⟨displayed, nowUnix, creator, hconfirm⟩)⟩)
      | cancel index =>
          obtain ⟨session, hsession, hcancel⟩ := Option.map_eq_some_iff.mp hfinish
          exact Or.inr (Or.inr ⟨k, index, session, _, hsession, Or.inr rfl,
            Or.inr (Or.inr hcancel)⟩)

theorem Explained.step {event : Event Storage} (h : Explained p crypto history s)
    (hstep : s.perform p crypto event = some (a, t)) : Explained p crypto (history ++ [a]) t := by
  rcases Process.perform_cases hstep with hbegin | htake | hsection
  · obtain ⟨signedOffer, signedResponse, hbegin⟩ := hbegin
    unfold Process.beginCall at hbegin
    split at hbegin
    · obtain ⟨rfl, rfl⟩ := Prod.mk.inj hbegin
      exact h.keep (fun _ => rfl) rfl rfl
    · rename_i session hsession
      obtain ⟨rfl, rfl⟩ := Prod.mk.inj hbegin
      exact h.begin hsession rfl rfl rfl
  · obtain ⟨otherwise, rest, -, htake⟩ := htake
    unfold Process.take at htake
    split at htake
    · obtain ⟨rfl, rfl⟩ := Prod.mk.inj htake
      exact h.keep (fun _ => rfl) rfl rfl
    · rename_i hpending
      obtain ⟨rfl, rfl⟩ := Prod.mk.inj htake
      exact h.keep (fun _ => rfl) rfl hpending
  · obtain ⟨k, index, session, u, hsession, hu, hsection⟩ := hsection
    have hsessions : u.sessions = s.sessions := by rcases hu with rfl | rfl <;> rfl
    have hpending : u.pending = s.pending := by rcases hu with rfl | rfl <;> rfl
    rcases hsection with hregister | hconfirm | hcancel
    · obtain ⟨-, -, hregister⟩ := hregister
      unfold Process.register at hregister
      split at hregister
      · obtain ⟨rfl, rfl⟩ := Prod.mk.inj hregister
        exact h.endSession hsession (fun _ => rfl) (by rw [← hsessions]; rfl) hpending
      · obtain ⟨rfl, rfl⟩ := Prod.mk.inj hregister
        exact h.keep (fun _ => rfl) hsessions rfl
    · obtain ⟨displayed, nowUnix, creator, hconfirm⟩ := hconfirm
      obtain ⟨rfl, rfl⟩ := Prod.mk.inj hconfirm
      refine h.endSession hsession (fun _ => rfl) ?_ hpending
      rw [← hsessions, ← Confirmation.session_eq session displayed nowUnix creator u.storage]
      rfl
    · obtain ⟨rfl, rfl⟩ := Prod.mk.inj hcancel
      exact h.endSession hsession (fun _ => rfl) (by rw [← hsessions]; rfl) hpending

/-- What the history allows of the next section. -/
structure Justified (p : Platform) (crypto : OfflineEnvelopeCrypto) (history : List Action)
    (a : Action) : Prop where
  attempt : ∀ index displayed nowUnix result created,
    a = .confirmed index displayed nowUnix result (some created) →
      ∃ session, Made p crypto history index session ∧
        displayed = encodeFingerprint session.expectedFingerprint.1 ∧
        ∀ b ∈ history, b.ends index = false
  ended : ∀ index displayed nowUnix result created,
    a = .confirmed index displayed nowUnix result created →
      (∃ b ∈ history, b.ends index = true) →
      result = .error (.pairingConfirmationException .sessionClosed) ∧ created = none
  registered : ∀ index result, a = .registered index result → pendingAfter history = none →
    ∃ display, result = .ok display

theorem Explained.justified {event : Event Storage} (h : Explained p crypto history s)
    (hstep : s.perform p crypto event = some (a, t)) : Justified p crypto history a := by
  have hother (hconfirmed : ∀ index displayed nowUnix result created,
        a ≠ .confirmed index displayed nowUnix result created)
      (hregistered : ∀ index result, a = .registered index result → pendingAfter history = none →
        ∃ display, result = .ok display) : Justified p crypto history a := by
    refine ⟨?_, ?_, hregistered⟩
    · intro index displayed nowUnix result created ha
      exact absurd ha (hconfirmed _ _ _ _ _)
    · intro index displayed nowUnix result created ha
      exact absurd ha (hconfirmed _ _ _ _ _)
  rcases Process.perform_cases hstep with hbegin | htake | hsection
  · obtain ⟨signedOffer, signedResponse, hbegin⟩ := hbegin
    unfold Process.beginCall at hbegin
    split at hbegin <;> obtain ⟨rfl, rfl⟩ := Prod.mk.inj hbegin <;> exact hother (by simp) (by simp)
  · obtain ⟨otherwise, rest, -, htake⟩ := htake
    unfold Process.take at htake
    split at htake <;> obtain ⟨rfl, rfl⟩ := Prod.mk.inj htake <;> exact hother (by simp) (by simp)
  · obtain ⟨k, index, session, u, hsession, hu, hsection⟩ := hsection
    have hpending : u.pending = s.pending := by rcases hu with rfl | rfl <;> rfl
    rcases hsection with hregister | hconfirm | hcancel
    · obtain ⟨-, -, hregister⟩ := hregister
      unfold Process.register at hregister
      split at hregister
      · rename_i pending hactive
        obtain ⟨rfl, rfl⟩ := Prod.mk.inj hregister
        refine hother (by simp) ?_
        intro _ _ _ hnone
        rw [hpending, h.pending, hnone] at hactive
        cases hactive
      · obtain ⟨rfl, rfl⟩ := Prod.mk.inj hregister
        refine hother (by simp) ?_
        intro _ result ha _
        exact ⟨session.display, (Action.registered.inj ha).2.symm⟩
    · obtain ⟨displayed, nowUnix, creator, hconfirm⟩ := hconfirm
      obtain ⟨rfl, -⟩ := Prod.mk.inj hconfirm
      refine ⟨?_, ?_, by simp⟩
      · intro _ _ _ _ created ha
        obtain ⟨rfl, rfl, rfl, -, hcreated⟩ := Action.confirmed.inj ha
        obtain ⟨hopen, hdisplayed⟩ := Confirmation.created_eq_some hcreated
        refine ⟨session, h.made _ session hsession, hdisplayed, ?_⟩
        intro b hb
        by_contra hended
        have hterminal := (h.terminal _ session hsession).mpr ⟨b, hb, Bool.eq_true_of_not_eq_false hended⟩
        rw [hopen] at hterminal
        cases hterminal
      · intro _ _ _ _ _ ha hended
        obtain ⟨rfl, rfl, rfl, rfl, rfl⟩ := Action.confirmed.inj ha
        have hterminal := (h.terminal _ session hsession).mpr hended
        rcases Confirmation.cases session displayed nowUnix creator u.storage with
          hclosed | hwrong | hright
        · rw [hclosed.2]
          exact ⟨rfl, rfl⟩
        · rw [hwrong.1] at hterminal
          cases hterminal
        · rw [hright.1] at hterminal
          cases hterminal
    · obtain ⟨rfl, rfl⟩ := Prod.mk.inj hcancel
      exact hother (by simp) (by simp)

theorem explained_start (storage : Storage) :
    Explained p crypto [] (Process.start storage) where
  made := by simp [Process.start]
  terminal := by simp [Process.start]
  known := by simp
  pending := rfl

theorem log_justified (storage : Storage) (events : List (Event Storage)) {before after : List Action}
    (h : log p crypto storage events = before ++ a :: after) : Justified p crypto before a := by
  have hperform : ∀ (s : Process Storage) event t, Process.step p crypto s event = some t →
      ∃ b, s.perform p crypto event = some (b, t) ∧ Process.act p crypto s event = some b := by
    intro s event t hstep
    obtain ⟨⟨b, u⟩, hresult, rfl⟩ := Option.map_eq_some_iff.mp hstep
    exact ⟨b, hresult, by rw [Process.act, hresult]; rfl⟩
  have hinv : ∀ history (s : Process Storage) event t, Explained p crypto history s →
      Process.step p crypto s event = some t →
      Explained p crypto (history ++ (Process.act p crypto s event).toList) t := by
    intro history s event t hs hstep
    obtain ⟨b, hresult, hact⟩ := hperform s event t hstep
    rw [hact]
    exact hs.step hresult
  have hjust : ∀ history (s : Process Storage) event t b, Explained p crypto history s →
      Process.step p crypto s event = some t → Process.act p crypto s event = some b →
      Justified p crypto history b := by
    intro history s event t b hs hstep hb
    obtain ⟨c, hresult, hact⟩ := hperform s event t hstep
    obtain rfl := Option.some.inj (hact.symm.trans hb)
    exact hs.justified hresult
  exact Machine.emitted_justified hinv hjust (explained_start storage) (by simp) before a after h

end Steps

section Waiting

variable {s t u : Process Storage}

/-- The sessions of begun calls that have not reached the coordinator's lock. -/
def begins (running : List (Remaining Storage)) : List ℕ :=
  running.filterMap fun rest =>
    match rest with
    | .begin index => some index
    | _ => none

/-- Each session waits for at most one registration, and the pending one for none. -/
structure Waits (s : Process Storage) : Prop where
  once : (begins s.running).Nodup
  unregistered : ∀ index ∈ begins s.running, s.pending ≠ some index
  made : ∀ index ∈ begins s.running, index < s.sessions.length
  pending : ∀ index, s.pending = some index → index < s.sessions.length

theorem begins_eraseIdx_sublist (running : List (Remaining Storage)) (k : ℕ) :
    (begins (running.eraseIdx k)).Sublist (begins running) :=
  (List.eraseIdx_sublist running k).filterMap _

/-- A call that goes on no longer waits. -/
theorem Waits.not_mem_erased (h : Waits s) {k index : ℕ} (hk : s.running[k]? = some (.begin index)) :
    index ∉ begins (s.running.eraseIdx k) := by
  obtain ⟨before, after, hrunning, herase⟩ := Splits.eraseIdx_split hk
  have honce := h.once
  rw [hrunning] at honce
  rw [herase]
  simp only [begins, List.filterMap_append, List.filterMap_cons] at honce ⊢
  exact (List.nodup_cons.mp (List.nodup_middle.mp honce)).1

theorem Waits.weaken (h : Waits s) (hrunning : (begins t.running).Sublist (begins s.running))
    (hpending : t.pending = s.pending ∨ t.pending = none)
    (hsessions : t.sessions.length = s.sessions.length) : Waits t where
  once := h.once.sublist hrunning
  unregistered := by
    intro index hindex
    rcases hpending with hpending | hpending
    · rw [hpending]
      exact h.unregistered index (hrunning.subset hindex)
    · rw [hpending]
      exact Option.some_ne_none index |>.symm
  made := by
    intro index hindex
    rw [hsessions]
    exact h.made index (hrunning.subset hindex)
  pending := by
    intro index hindex
    rw [hsessions]
    rcases hpending with hpending | hpending
    · exact h.pending index (hpending ▸ hindex)
    · rw [hpending] at hindex
      cases hindex

theorem Waits.step {event : Event Storage} {a : Action} (h : Waits s)
    (hstep : s.perform p crypto event = some (a, t)) : Waits t := by
  rcases Process.perform_cases hstep with hbegin | htake | hsection
  · obtain ⟨signedOffer, signedResponse, hbegin⟩ := hbegin
    unfold Process.beginCall at hbegin
    split at hbegin
    · obtain ⟨-, rfl⟩ := Prod.mk.inj hbegin
      exact h
    · obtain ⟨-, rfl⟩ := Prod.mk.inj hbegin
      have hlist : begins (s.running ++ [.begin s.sessions.length]) =
          begins s.running ++ [s.sessions.length] := by simp [begins]
      have hmem : ∀ index ∈ begins s.running ++ [s.sessions.length],
          index ∈ begins s.running ∨ index = s.sessions.length := by simp
      refine ⟨?_, ?_, ?_, ?_⟩ <;> simp only [Process.later, hlist, List.length_append]
      · refine List.nodup_append.mpr ⟨h.once, by simp, ?_⟩
        intro index hindex other hother heq
        rw [List.mem_singleton.mp hother] at heq
        exact absurd (h.made index hindex) (by omega)
      · intro index hindex hpending
        have hlt := h.pending index hpending
        rcases hmem index hindex with hwaiting | rfl
        · exact h.unregistered index hwaiting hpending
        · exact absurd hlt (lt_irrefl _)
      · intro index hindex
        rcases hmem index hindex with hwaiting | rfl
        · exact Nat.lt_add_right _ (h.made index hwaiting)
        · simp
      · intro index hindex
        exact Nat.lt_add_right _ (h.pending index hindex)
  · obtain ⟨otherwise, rest, hrest, htake⟩ := htake
    unfold Process.take at htake
    split at htake
    · rename_i index hindex
      obtain ⟨-, rfl⟩ := Prod.mk.inj htake
      refine h.weaken ?_ (Or.inr rfl) rfl
      have hlist : begins (s.running ++ [rest index]) = begins s.running := by
        have hnone := hrest index
        cases hcall : rest index with
        | begin other => exact absurd hcall (hnone other)
        | confirm other displayed nowUnix creator => simp [begins]
        | cancel other => simp [begins]
      exact (congrArg (List.Sublist · (begins s.running)) hlist).mpr (List.Sublist.refl _)
    · obtain ⟨-, rfl⟩ := Prod.mk.inj htake
      exact h
  · obtain ⟨k, index, session, u, hsession, hu, hsection⟩ := hsection
    have hwaits : Waits u := by
      rcases hu with rfl | rfl
      · exact h
      · exact h.weaken (begins_eraseIdx_sublist _ _) (Or.inl rfl) rfl
    rcases hsection with hregister | hconfirm | hcancel
    · obtain ⟨hk, rfl, hregister⟩ := hregister
      unfold Process.register at hregister
      split at hregister
      · obtain ⟨-, rfl⟩ := Prod.mk.inj hregister
        exact hwaits.weaken (List.Sublist.refl _) (Or.inl rfl) List.length_set
      · obtain ⟨-, rfl⟩ := Prod.mk.inj hregister
        refine ⟨hwaits.once, ?_, hwaits.made, ?_⟩
        · intro other hother hpending
          obtain rfl := Option.some.inj hpending
          exact h.not_mem_erased hk hother
        · intro other hpending
          obtain rfl := Option.some.inj hpending
          exact (List.getElem?_eq_some_iff.mp hsession).1
    · obtain ⟨displayed, nowUnix, creator, hconfirm⟩ := hconfirm
      obtain ⟨-, rfl⟩ := Prod.mk.inj hconfirm
      exact hwaits.weaken (List.Sublist.refl _) (Or.inl rfl) List.length_set
    · obtain ⟨-, rfl⟩ := Prod.mk.inj hcancel
      exact hwaits.weaken (List.Sublist.refl _) (Or.inl rfl) List.length_set

theorem waits_of_run {storage : Storage} {events : List (Event Storage)}
    (h : Machine.run (Process.step p crypto) (Process.start storage) events = some s) : Waits s := by
  have hstart : Waits (Process.start storage) := ⟨by simp [Process.start, begins],
    by simp [Process.start], by simp [Process.start, begins], by simp [Process.start]⟩
  refine Machine.run_preserves ?_ hstart h
  intro s event t hs hstep
  obtain ⟨⟨a, u⟩, hperform, rfl⟩ := Option.map_eq_some_iff.mp hstep
  exact hs.step hperform

/-- A begin while another session is pending fails, ends its own session and keeps the other. -/
theorem Waits.refuse (h : Waits s) {k index active : ℕ} (hk : s.running[k]? = some (.begin index))
    (hpending : s.pending = some active) :
    ∃ t session, s.perform p crypto (.resume k) =
        some (.registered index (.error .sessionActive), t) ∧
      t.sessions[index]? = some session ∧ session.terminal = true ∧ t.pending = some active ∧
      t.sessions[active]? = s.sessions[active]? ∧ t.storage = s.storage := by
  have hmem : index ∈ begins s.running :=
    List.mem_filterMap.mpr ⟨_, List.mem_of_getElem? hk, rfl⟩
  have hlt := h.made index hmem
  have hother : index ≠ active := by
    rintro rfl
    exact h.unregistered index hmem hpending
  have hsession : s.sessions[index]? = some s.sessions[index] := List.getElem?_eq_getElem hlt
  refine ⟨{ s with running := s.running.eraseIdx k }.update index s.sessions[index].cancel,
    s.sessions[index].cancel, ?_, List.getElem?_set_self hlt, rfl, hpending,
    List.getElem?_set_ne hother, rfl⟩
  simp [Process.perform, hk, Process.finish, hsession, Process.register, hpending]

end Waiting

/-- A section that does not call the creator leaves the storage. -/
theorem storage_eq_of_perform {s t : Process Storage} {event : Event Storage} {a : Action}
    (h : s.perform p crypto event = some (a, t)) (ha : ∀ index, a.attempts index = false) :
    t.storage = s.storage := by
  rcases Process.perform_cases h with hbegin | htake | hsection
  · obtain ⟨signedOffer, signedResponse, hbegin⟩ := hbegin
    unfold Process.beginCall at hbegin
    split at hbegin <;> obtain ⟨-, rfl⟩ := Prod.mk.inj hbegin <;> rfl
  · obtain ⟨otherwise, rest, -, htake⟩ := htake
    unfold Process.take at htake
    split at htake <;> obtain ⟨-, rfl⟩ := Prod.mk.inj htake <;> rfl
  · obtain ⟨k, index, session, u, -, hu, hsection⟩ := hsection
    have hstorage : u.storage = s.storage := by rcases hu with rfl | rfl <;> rfl
    rw [← hstorage]
    rcases hsection with hregister | hconfirm | hcancel
    · obtain ⟨-, -, hregister⟩ := hregister
      unfold Process.register at hregister
      split at hregister <;> obtain ⟨-, rfl⟩ := Prod.mk.inj hregister <;> rfl
    · obtain ⟨displayed, nowUnix, creator, hconfirm⟩ := hconfirm
      obtain ⟨rfl, rfl⟩ := Prod.mk.inj hconfirm
      apply Confirmation.storage_eq
      cases hcreated : (session.confirm displayed nowUnix creator u.storage).created with
      | none => rfl
      | some created =>
          have hnone := ha index
          simp [Action.attempts, hcreated] at hnone
    · obtain ⟨-, rfl⟩ := Prod.mk.inj hcancel
      rfl

/-- Over any interleaving of calls, a session attempts its creation at most once, by a confirmation
with the full fingerprint of the transcript it was made from, and before anything has ended it.
After a session has ended its confirmations throw and leave the storage. Once a call of the
coordinator has emptied the slot the next registration succeeds; while a session is pending a
registration fails, ends its own session and keeps the pending one. -/
theorem confirmation_one_shot (p : Platform) (crypto : OfflineEnvelopeCrypto) (storage : Storage)
    (events : List (Event Storage)) :
    (∀ index, ((log p crypto storage events).filter (·.attempts index)).length ≤ 1) ∧
      (∀ before a after, log p crypto storage events = before ++ a :: after →
        (∀ index displayed nowUnix result created,
          a = .confirmed index displayed nowUnix result (some created) →
            (∃ signedOffer signedResponse session,
              .began signedOffer signedResponse (.ok index) ∈ before ∧
              beginWithCreator p crypto signedOffer signedResponse = .ok session ∧
              displayed = encodeFingerprint session.record.transcriptFingerprint.1) ∧
            ∀ b ∈ before, b.ends index = false) ∧
        (∀ index, a.ends index = true → ∀ displayed nowUnix result created,
          .confirmed index displayed nowUnix result created ∈ after →
            result = .error (.pairingConfirmationException .sessionClosed) ∧ created = none) ∧
        (a.empties = true → ∀ between index result later,
          after = between ++ .registered index result :: later →
          (∀ b ∈ between, b.registers = false) → ∃ display, result = .ok display)) ∧
      ∀ s, Machine.run (Process.step p crypto) (Process.start storage) events = some s →
        (∀ event a t, s.perform p crypto event = some (a, t) → (∀ index, a.attempts index = false) →
          t.storage = s.storage) ∧
        ∀ k index active, s.running[k]? = some (.begin index) → s.pending = some active →
          ∃ t session, s.perform p crypto (.resume k) =
              some (.registered index (.error .sessionActive), t) ∧
            t.sessions[index]? = some session ∧ session.terminal = true ∧
            t.pending = some active ∧ t.sessions[active]? = s.sessions[active]? ∧
            t.storage = s.storage := by
  have hover : ∀ before a after, log p crypto storage events = before ++ a :: after →
      ∀ index, a.ends index = true → ∀ displayed nowUnix result created,
        .confirmed index displayed nowUnix result created ∈ after →
          result = .error (.pairingConfirmationException .sessionClosed) ∧ created = none := by
    intro before a after hlog index hends displayed nowUnix result created hmem
    obtain ⟨between, later, rfl⟩ := List.append_of_mem hmem
    have hsplit : log p crypto storage events =
        (before ++ a :: between) ++ .confirmed index displayed nowUnix result created :: later := by
      simpa using hlog
    exact (log_justified storage events hsplit).ended _ _ _ _ _ rfl ⟨a, by simp, hends⟩
  refine ⟨?_, ?_, ?_⟩
  · intro index
    apply Splits.length_filter_le_one
    intro before a after hlog hattempt later hlater
    by_contra hagain
    have hends := Action.ends_of_attempts hattempt
    cases later with
    | confirmed other displayed nowUnix result created =>
        cases created with
        | none => exact hagain rfl
        | some created =>
            have hother : other = index := by
              simpa [Action.attempts] using hagain
            subst hother
            have hnone := (hover before a after hlog other hends _ _ _ _ hlater).2
            cases hnone
    | _ => exact hagain rfl
  · intro before a after hlog
    refine ⟨?_, hover before a after hlog, ?_⟩
    · intro index displayed nowUnix result created ha
      obtain ⟨session, hmade, hdisplayed, hopen⟩ :=
        (log_justified storage events hlog).attempt _ _ _ _ _ ha
      obtain ⟨signedOffer, signedResponse, hmem, hbegin⟩ := hmade
      refine ⟨⟨signedOffer, signedResponse, _, hmem, hbegin, ?_⟩, hopen⟩
      rw [hdisplayed]
      exact congrArg (fun digest => encodeFingerprint digest.1) (beginWithCreator_eq_ok hbegin).2
    · rintro hempties between index result later rfl hbetween
      have hsplit : log p crypto storage events =
          (before ++ a :: between) ++ .registered index result :: later := by
        simpa using hlog
      exact (log_justified storage events hsplit).registered index result rfl
        (pendingAfter_eq_none hempties hbetween)
  · intro s hrun
    exact ⟨fun event a t => storage_eq_of_perform,
      fun k index active hk hpending => (waits_of_run hrun).refuse hk hpending⟩

section Sample

private def sampleOffer : VerifiedPairingOffer where
  desktopId := sampleRecord.desktopId
  desktopLabel := sampleRecord.desktopLabel
  desktopSigningPublicKey := sampleRecord.desktopSigningPublicKey
  desktopSelectionPublicKey := sampleRecord.desktopSelectionPublicKey
  encoded := []
  digest := sampleRecord.offerDigest

private def sampleResponse : VerifiedPairingResponse where
  identityId := sampleRecord.identityId
  recipient := sampleRecord.recipient
  phoneSigningPublicKey := sampleRecord.phoneSigningPublicKey
  encoded := []

/-- A verifier that accepts the sample transcript. -/
def sampleCrypto : OfflineEnvelopeCrypto where
  verifyPairingOffer _ := some sampleOffer
  verifyPairingResponse _ _ := some sampleResponse

/-- A session that is cancelled on its own stays in the coordinator's slot, and the next begin
fails. -/
theorem own_cancel_stays_pending :
    log samplePlatform sampleCrypto () [.call (.begin [] []), .resume 0, .call (.sessionCancel 0),
        .call (.begin [] []), .resume 0] =
      [.began [] [] (.ok 0),
        .registered 0 (.ok ⟨"laptop", encodeFingerprint (List.replicate 32 0)⟩), .cancelled 0,
        .began [] [] (.ok 1), .registered 1 (.error .sessionActive)] := by
  decide +kernel

end Sample

end AgePluginPhone.Android.PairingConfirmation
