import Mathlib

/-!
# Machines that answer every event

Runs of a total machine: the answers it gives and the state it ends in.
-/

namespace AgePluginPhone.Library.Transducer

variable {State State' Event Answer : Type*} (respond : State → Event → Answer × State)

/-- The state after a list of events. -/
def final (s : State) (events : List Event) : State := events.foldl (fun s e => (respond s e).2) s

/-- The answers to a list of events. -/
def answers : State → List Event → List Answer
  | _, [] => []
  | s, e :: es => (respond s e).1 :: answers (respond s e).2 es

variable {respond}

@[simp] theorem final_nil (s : State) : final respond s [] = s := rfl

@[simp] theorem final_cons (s : State) (e : Event) (es : List Event) :
    final respond s (e :: es) = final respond (respond s e).2 es := rfl

theorem final_append (s : State) (es fs : List Event) :
    final respond s (es ++ fs) = final respond (final respond s es) fs := List.foldl_append

theorem answers_append (s : State) (es fs : List Event) :
    answers respond s (es ++ fs) = answers respond s es ++ answers respond (final respond s es) fs := by
  induction es generalizing s with
  | nil => rfl
  | cons e es ih => simp [answers, ih]

/-- A place in the answers is that of an event, answered in the state after the events before. -/
theorem answers_split {s : State} {events : List Event} {before later : List Answer} {a : Answer}
    (h : answers respond s events = before ++ a :: later) :
    ∃ earlier e rest, events = earlier ++ e :: rest ∧ before = answers respond s earlier ∧
      a = (respond (final respond s earlier) e).1 := by
  induction events generalizing s before with
  | nil => simp [answers] at h
  | cons e es ih =>
      cases before with
      | nil =>
          obtain ⟨rfl, -⟩ := List.cons.inj h
          exact ⟨[], e, es, rfl, rfl, rfl⟩
      | cons b before =>
          obtain ⟨rfl, hrest⟩ := List.cons.inj h
          obtain ⟨earlier, e', rest, rfl, rfl, rfl⟩ := ih hrest
          exact ⟨e :: earlier, e', rest, rfl, rfl, rfl⟩

/-- An invariant of the past events and the state, kept by every event, holds after every run. -/
theorem final_explained (respond : State → Event → Answer × State)
    (Inv : List Event → State → Prop) {s : State} (hstart : Inv [] s)
    (hstep : ∀ past s e, Inv past s → Inv (past ++ [e]) (respond s e).2) (events : List Event) :
    Inv events (final respond s events) := by
  induction events using List.reverseRecOn with
  | nil => exact hstart
  | append_singleton past e ih =>
      rw [final_append]
      exact hstep past _ e ih

section Throughout

variable (respond) in
/-- A condition on every event of a run and the state it meets. -/
def Throughout (P : State → Event → Prop) (s : State) (events : List Event) : Prop :=
  ∀ earlier e later, events = earlier ++ e :: later → P (final respond s earlier) e

variable {P Q : State → Event → Prop} {Inv : State → Prop} {s : State} {e : Event} {es : List Event}

theorem throughout_cons :
    Throughout respond P s (e :: es) ↔ P s e ∧ Throughout respond P (respond s e).2 es := by
  constructor
  · intro h
    exact ⟨h [] e es rfl, fun earlier e' later hes => h (e :: earlier) e' later (by rw [hes]; rfl)⟩
  · intro h earlier e' later hes
    cases earlier with
    | nil =>
        obtain ⟨rfl, rfl⟩ := List.cons.inj hes
        exact h.1
    | cons x earlier =>
        obtain ⟨rfl, hrest⟩ := List.cons.inj hes
        exact h.2 earlier e' later hrest

/-- Two conditions that an invariant makes the same, and that keep it, hold throughout the same
runs. -/
theorem throughout_congr (hsame : ∀ s e, Inv s → (P s e ↔ Q s e))
    (hkeep : ∀ s e, Inv s → Q s e → Inv (respond s e).2) (hs : Inv s) :
    Throughout respond P s es ↔ Throughout respond Q s es := by
  induction es generalizing s with
  | nil => simp [Throughout]
  | cons e es ih =>
      rw [throughout_cons, throughout_cons, hsame s e hs]
      constructor
      · intro h
        exact ⟨h.1, (ih (hkeep s e hs h.1)).mp h.2⟩
      · intro h
        exact ⟨h.1, (ih (hkeep s e hs h.1)).mpr h.2⟩

end Throughout

/-- What is related to a list with a last element has one too. -/
theorem forall₂_concat {Answer' : Type*} {Same : Answer → Answer' → Prop} {xs : List Answer}
    {ys : List Answer'} {y : Answer'} (h : List.Forall₂ Same xs (ys ++ [y])) :
    ∃ early x, xs = early ++ [x] ∧ List.Forall₂ Same early ys ∧ Same x y := by
  induction ys generalizing xs with
  | nil =>
      cases h with
      | cons hlast hnil =>
          cases hnil
          exact ⟨[], _, rfl, .nil, hlast⟩
  | cons z ys ih =>
      cases h with
      | cons hhead htail =>
          obtain ⟨early, x, rfl, hearly, hlast⟩ := ih htail
          exact ⟨_ :: early, x, rfl, .cons hhead hearly, hlast⟩

/-- Machines related by a simulation give related answers to the events it covers. -/
theorem simulation {Answer' : Type*} (respond : State → Event → Answer × State)
    (respond' : State' → Event → Answer' × State') (R : State → State' → Prop)
    (Same : Answer → Answer' → Prop) (Covered : Event → Prop)
    (hstep : ∀ s s' e, Covered e → R s s' → Same (respond s e).1 (respond' s' e).1 ∧
      R (respond s e).2 (respond' s' e).2)
    {s : State} {s' : State'} {events : List Event} (hcovered : ∀ e ∈ events, Covered e)
    (h : R s s') :
    List.Forall₂ Same (answers respond s events) (answers respond' s' events) ∧
      R (final respond s events) (final respond' s' events) := by
  induction events generalizing s s' with
  | nil => exact ⟨.nil, h⟩
  | cons e es ih =>
      obtain ⟨hhead, htail⟩ := List.forall_mem_cons.mp hcovered
      obtain ⟨hsame, hnext⟩ := hstep s s' e hhead h
      obtain ⟨hrest, hlast⟩ := ih htail hnext
      exact ⟨.cons hsame hrest, hlast⟩

section Maps

variable {Event' Answer' : Type*} (f : Event' → Event)

theorem final_map (s : State) (events : List Event') :
    final (fun s e => respond s (f e)) s events = final respond s (events.map f) := by
  induction events generalizing s with
  | nil => rfl
  | cons e es ih => simp [ih]

theorem answers_map (s : State) (events : List Event') :
    answers (fun s e => respond s (f e)) s events = answers respond s (events.map f) := by
  induction events generalizing s with
  | nil => rfl
  | cons e es ih => simp [answers, ih]

end Maps

end AgePluginPhone.Library.Transducer
