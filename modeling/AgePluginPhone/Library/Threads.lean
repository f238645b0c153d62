import AgePluginPhone.Library.Machine

/-!
# Threads over a shared state

Threads take one action at a time on a shared state, in any interleaving. An event starts a
thread, and an action may put further actions before the rest of its thread.
-/

namespace AgePluginPhone.Library.Threads

/-- What a step does: what is noted, the state after it, and the actions that come next. -/
structure Effect (State Action Note : Type*) where
  note : Note
  state : State
  next : List Action

structure System (State Action Event Note : Type*) where
  perform : State → Action → Effect State Action Note
  arrive : State → Event → Option (Effect State Action Note)

structure Process (State Action : Type*) where
  state : State
  threads : List (List Action)

/-- An event arrives, or a thread takes its next action. -/
inductive Move (Event : Type*)
  | event (event : Event)
  | resume (thread : ℕ)

variable {State Action Event Note : Type*}

/-- The actions that threads have still to take. -/
def Process.pending (s : Process State Action) : Multiset Action := s.threads.flatten

/-- A property of the notes, the state and the pending actions. -/
def Process.Holds (Inv : List Note → State → Multiset Action → Prop) (notes : List Note)
    (s : Process State Action) : Prop :=
  Inv notes s.state s.pending

namespace System

variable (P : System State Action Event Note)

def take (s : Process State Action) : Move Event → Option (Note × Process State Action)
  | .event event => (P.arrive s.state event).map fun effect =>
      (effect.note, ⟨effect.state, s.threads ++ [effect.next]⟩)
  | .resume thread =>
      match s.threads[thread]? with
      | some (action :: rest) =>
          let effect := P.perform s.state action
          some (effect.note, ⟨effect.state, s.threads.set thread (effect.next ++ rest)⟩)
      | _ => none

def step (s : Process State Action) (move : Move Event) : Option (Process State Action) :=
  (P.take s move).map (·.2)

def noted (s : Process State Action) (move : Move Event) : Option Note := (P.take s move).map (·.1)

/-- The notes of a run from a state with no threads. -/
def log (s : State) (moves : List (Move Event)) : List Note :=
  Machine.emitted P.step P.noted ⟨s, []⟩ moves

/-- The end of a run from a state with no threads. -/
def run (s : State) (moves : List (Move Event)) : Option (Process State Action) :=
  Machine.run P.step ⟨s, []⟩ moves

variable {P}

private theorem pending_set {threads : List (List Action)} {thread : ℕ} {action : Action}
    {rest : List Action} (h : threads[thread]? = some (action :: rest)) :
    ∃ others : Multiset Action, (threads.flatten : Multiset Action) = action ::ₘ others ∧
      ∀ next : List Action, ((threads.set thread (next ++ rest)).flatten : Multiset Action) =
        next + others := by
  obtain ⟨hlt, hget⟩ := List.getElem?_eq_some_iff.mp h
  have hsplit : threads = threads.take thread ++ (action :: rest) :: threads.drop (thread + 1) := by
    rw [← hget, ← List.drop_eq_getElem_cons hlt, List.take_append_drop]
  refine ⟨((threads.take thread).flatten : Multiset Action) +
    (rest ++ (threads.drop (thread + 1)).flatten : List Action), ?_, ?_⟩
  · conv_lhs => rw [hsplit]
    simp [← Multiset.coe_add, ← Multiset.cons_coe, Multiset.add_cons]
  · intro next
    rw [List.set_eq_take_append_cons_drop, if_pos hlt]
    simp only [List.flatten_append, List.flatten_cons, ← Multiset.coe_add]
    abel

/-- A step takes in an event, or an action that was pending. -/
theorem take_cases {s t : Process State Action} {move : Move Event} {note : Note}
    (h : P.take s move = some (note, t)) :
    (∃ event effect, P.arrive s.state event = some effect ∧ note = effect.note ∧
      t.state = effect.state ∧ t.pending = effect.next + s.pending) ∨
    ∃ action others, s.pending = action ::ₘ others ∧ note = (P.perform s.state action).note ∧
      t.state = (P.perform s.state action).state ∧
      t.pending = (P.perform s.state action).next + others := by
  cases move with
  | event event =>
      obtain ⟨effect, heffect, hpair⟩ := Option.map_eq_some_iff.mp h
      obtain ⟨rfl, rfl⟩ := Prod.mk.inj hpair
      refine Or.inl ⟨event, effect, heffect, rfl, rfl, ?_⟩
      simp [Process.pending, ← Multiset.coe_add, add_comm]
  | resume thread =>
      simp only [take] at h
      split at h
      · rename_i action rest hthread
        obtain ⟨rfl, rfl⟩ := Prod.mk.inj (Option.some.inj h)
        obtain ⟨others, hpending, hset⟩ := pending_set hthread
        exact Or.inr ⟨action, others, hpending, rfl, rfl, hset _⟩
      · cases h

variable (P) in
/-- Each step keeps an invariant of the notes, the state and the pending actions where another
one holds. -/
structure KeepsOver (Base Inv : List Note → State → Multiset Action → Prop) : Prop where
  arrive : ∀ {notes s pending event effect}, Base notes s pending → Inv notes s pending →
    P.arrive s event = some effect →
    Inv (notes ++ [effect.note]) effect.state (effect.next + pending)
  perform : ∀ {notes s pending action effect}, Base notes s (action ::ₘ pending) →
    Inv notes s (action ::ₘ pending) → P.perform s action = effect →
    Inv (notes ++ [effect.note]) effect.state (effect.next + pending)

variable (P) in
abbrev Keeps (Inv : List Note → State → Multiset Action → Prop) : Prop :=
  P.KeepsOver (fun _ _ _ => True) Inv

variable {Base Inv : List Note → State → Multiset Action → Prop}

theorem Keeps.over (h : P.Keeps Inv) : P.KeepsOver Base Inv where
  arrive _ hs heffect := h.arrive trivial hs heffect
  perform _ hs heffect := h.perform trivial hs heffect


theorem KeepsOver.and (hbase : P.Keeps Base) (h : P.KeepsOver Base Inv) :
    P.Keeps fun notes s pending => Base notes s pending ∧ Inv notes s pending where
  arrive _ hs heffect := ⟨hbase.arrive trivial hs.1 heffect, h.arrive hs.1 hs.2 heffect⟩
  perform _ hs heffect := ⟨hbase.perform trivial hs.1 heffect, h.perform hs.1 hs.2 heffect⟩

private theorem Keeps.step (h : P.Keeps Inv) (notes : List Note) (s : Process State Action)
    (move : Move Event) (t : Process State Action) (hs : s.Holds Inv notes)
    (hstep : P.step s move = some t) : t.Holds Inv (notes ++ (P.noted s move).toList) := by
  obtain ⟨⟨note, u⟩, htake, rfl⟩ := Option.map_eq_some_iff.mp hstep
  rw [noted, htake, Process.Holds]
  rcases take_cases htake with harrive | hperform
  · obtain ⟨event, effect, heffect, rfl, hstate, hpending⟩ := harrive
    rw [hstate, hpending]
    exact h.arrive trivial hs heffect
  · obtain ⟨action, others, hbefore, rfl, hstate, hpending⟩ := hperform
    rw [hstate, hpending]
    rw [Process.Holds, hbefore] at hs
    exact h.perform trivial hs rfl

theorem Keeps.run (h : P.Keeps Inv) {s : State} {t : Process State Action}
    {moves : List (Move Event)} (hs : Inv [] s 0) (hrun : P.run s moves = some t) :
    Inv (P.log s moves) t.state t.pending := by
  have hstart : Process.Holds Inv [] (⟨s, []⟩ : Process State Action) := hs
  have hend := Machine.run_preserves_of_history (Keeps.step h) hstart hrun
  rwa [List.nil_append] at hend

/-- The notes of a run that stops satisfy the invariant where it stopped. -/
theorem Keeps.log (h : P.Keeps Inv) {s : State} (hs : Inv [] s 0) (moves : List (Move Event)) :
    ∃ state pending, Inv (P.log s moves) state pending := by
  have hrest (notes : List Note) (t : Process State Action) (ht : t.Holds Inv notes) :
      ∃ u : Process State Action,
        u.Holds Inv (notes ++ Machine.emitted P.step P.noted t moves) := by
    induction moves generalizing notes t with
    | nil => exact ⟨t, by simpa [Machine.emitted] using ht⟩
    | cons move moves ih =>
        simp only [Machine.emitted]
        cases hstep : P.step t move with
        | none => exact ⟨t, by simpa using ht⟩
        | some u => simpa using ih _ u (h.step notes t move u ht hstep)
  obtain ⟨u, hu⟩ := hrest [] ⟨s, []⟩ hs
  exact ⟨u.state, u.pending, hu⟩

/-- What a step notes is justified by the notes before it. -/
theorem Keeps.justified (h : P.Keeps Inv) {Justified : List Note → Note → Prop}
    (harrive : ∀ notes s pending event effect, Inv notes s pending →
      P.arrive s event = some effect → Justified notes effect.note)
    (hperform : ∀ notes s pending action effect, Inv notes s (action ::ₘ pending) →
      P.perform s action = effect → Justified notes effect.note)
    {s : State} {moves : List (Move Event)} (hs : Inv [] s 0) {before after : List Note}
    {note : Note} (hlog : P.log s moves = before ++ note :: after) : Justified before note := by
  have hstart : Process.Holds Inv [] (⟨s, []⟩ : Process State Action) := hs
  refine Machine.emitted_justified (Keeps.step h) ?_ hstart (by simp) before note after hlog
  intro notes s move t noted hs hstep hnoted
  obtain ⟨⟨note, u⟩, htake, rfl⟩ := Option.map_eq_some_iff.mp hstep
  rw [System.noted, htake] at hnoted
  obtain rfl : note = noted := Option.some.inj hnoted
  rcases take_cases htake with heffect | heffect
  · obtain ⟨event, effect, heffect, rfl, -⟩ := heffect
    exact harrive notes _ _ event effect hs heffect
  · obtain ⟨action, others, hpending, rfl, -⟩ := heffect
    rw [Process.Holds, hpending] at hs
    exact hperform notes _ others action _ hs rfl

end System

/-- A weight of what is noted, of the state and of what is pending. -/
structure Weight (State Action Note : Type*) where
  ofNote : Note → ℕ
  ofState : State → ℕ
  ofAction : Action → ℕ

namespace Weight

variable {P : System State Action Event Note} (w : Weight State Action Note)

def total (notes : List Note) (s : State) (pending : Multiset Action) : ℕ :=
  (notes.map w.ofNote).sum + w.ofState s + (pending.map w.ofAction).sum

/-- The weight that an effect leaves. -/
def ofEffect (effect : Effect State Action Note) : ℕ :=
  w.ofState effect.state + w.ofNote effect.note + (effect.next.map w.ofAction).sum

variable {w}

private theorem total_effect (notes : List Note) (effect : Effect State Action Note)
    (pending : Multiset Action) : w.total (notes ++ [effect.note]) effect.state
      (effect.next + pending) =
        (notes.map w.ofNote).sum + w.ofEffect effect + (pending.map w.ofAction).sum := by
  simp only [total, ofEffect, List.map_append, List.map_cons, List.map_nil, List.sum_append,
    List.sum_cons, List.sum_nil, Multiset.map_add, Multiset.sum_add, Multiset.map_coe,
    Multiset.sum_coe]
  omega

private theorem total_cons (notes : List Note) (s : State) (action : Action)
    (pending : Multiset Action) : w.total notes s (action ::ₘ pending) =
      (notes.map w.ofNote).sum + (w.ofState s + w.ofAction action) +
        (pending.map w.ofAction).sum := by
  simp only [total, Multiset.map_cons, Multiset.sum_cons]
  omega

/-- A weight that counts the notes of a kind. -/
theorem length_filter {p : Note → Bool} (h : ∀ note, w.ofNote note = if p note then 1 else 0)
    (notes : List Note) : (notes.filter p).length = (notes.map w.ofNote).sum := by
  induction notes with
  | nil => rfl
  | cons note notes ih =>
      rw [List.map_cons, List.sum_cons, ← ih, h note]
      cases hp : p note <;> simp [hp, Nat.add_comm]

theorem length_filter_le {p : Note → Bool} (h : ∀ note, w.ofNote note = if p note then 1 else 0)
    {notes : List Note} {s : State} {pending : Multiset Action} :
    (notes.filter p).length ≤ w.total notes s pending := by
  rw [length_filter h, total]
  omega

theorem state_le {notes : List Note} {s : State} {pending : Multiset Action} :
    w.ofState s ≤ w.total notes s pending :=
  (Nat.le_add_left _ _).trans (Nat.le_add_right _ _)

/-- Of a weight of at most one, a note that has it leaves none to the rest. -/
theorem exclusive_note {notes : List Note} {s : State} {pending : Multiset Action} {note : Note}
    (h : w.total notes s pending ≤ 1) (hmem : note ∈ notes) (hnote : w.ofNote note = 1) :
    w.ofState s = 0 ∧ ∀ action ∈ pending, w.ofAction action = 0 := by
  have hle : w.ofNote note ≤ (notes.map w.ofNote).sum :=
    List.single_le_sum (by simp) _ (List.mem_map_of_mem hmem)
  rw [total] at h
  refine ⟨by omega, fun action haction => ?_⟩
  have hle' : w.ofAction action ≤ (pending.map w.ofAction).sum :=
    Multiset.single_le_sum (by simp) _ (Multiset.mem_map_of_mem _ haction)
  omega

/-- Of a weight of at most one, a pending action that has it leaves none to the rest. -/
theorem exclusive_action {notes : List Note} {s : State} {pending : Multiset Action}
    {action : Action} (h : w.total notes s pending ≤ 1) (hmem : action ∈ pending)
    (haction : w.ofAction action = 1) : w.ofState s = 0 ∧ ∀ note ∈ notes, w.ofNote note = 0 := by
  have hle : w.ofAction action ≤ (pending.map w.ofAction).sum :=
    Multiset.single_le_sum (by simp) _ (Multiset.mem_map_of_mem _ hmem)
  rw [total] at h
  refine ⟨by omega, fun note hnote => ?_⟩
  have hle' : w.ofNote note ≤ (notes.map w.ofNote).sum :=
    List.single_le_sum (by simp) _ (List.mem_map_of_mem hnote)
  omega

/-- Of a weight of at most one, a state that has it leaves none to the rest. -/
theorem exclusive_state {notes : List Note} {s : State} {pending : Multiset Action}
    (h : w.total notes s pending ≤ 1) (hstate : w.ofState s = 1) :
    (∀ note ∈ notes, w.ofNote note = 0) ∧ ∀ action ∈ pending, w.ofAction action = 0 := by
  rw [total] at h
  constructor
  · intro note hnote
    have hle : w.ofNote note ≤ (notes.map w.ofNote).sum :=
      List.single_le_sum (by simp) _ (List.mem_map_of_mem hnote)
    omega
  · intro action haction
    have hle : w.ofAction action ≤ (pending.map w.ofAction).sum :=
      Multiset.single_le_sum (by simp) _ (Multiset.mem_map_of_mem _ haction)
    omega

/-- A weight that no step adds to stays within its bound. -/
theorem keeps_le (bound : ℕ)
    (harrive : ∀ s event effect, P.arrive s event = some effect → w.ofEffect effect ≤ w.ofState s)
    (hperform : ∀ s action effect, P.perform s action = effect →
      w.ofEffect effect ≤ w.ofState s + w.ofAction action) :
    P.Keeps fun notes s pending => w.total notes s pending ≤ bound where
  arrive {notes s pending event effect} _ hs heffect := by
    have hle := harrive s event effect heffect
    have htotal : w.total notes s pending ≤ bound := hs
    rw [total] at htotal
    rw [total_effect]
    omega
  perform {notes s pending action effect} _ hs heffect := by
    have hle := hperform s action effect heffect
    have htotal : w.total notes s (action ::ₘ pending) ≤ bound := hs
    rw [total_cons] at htotal
    rw [total_effect]
    omega

/-- A weight that every step keeps is the same throughout. -/
theorem keeps_eq (value : ℕ)
    (harrive : ∀ s event effect, P.arrive s event = some effect → w.ofEffect effect = w.ofState s)
    (hperform : ∀ s action effect, P.perform s action = effect →
      w.ofEffect effect = w.ofState s + w.ofAction action) :
    P.Keeps fun notes s pending => w.total notes s pending = value where
  arrive {notes s pending event effect} _ hs heffect := by
    have heq := harrive s event effect heffect
    have htotal : w.total notes s pending = value := hs
    rw [total] at htotal
    rw [total_effect]
    omega
  perform {notes s pending action effect} _ hs heffect := by
    have heq := hperform s action effect heffect
    have htotal : w.total notes s (action ::ₘ pending) = value := hs
    rw [total_cons] at htotal
    rw [total_effect]
    omega

end Weight

end AgePluginPhone.Library.Threads
